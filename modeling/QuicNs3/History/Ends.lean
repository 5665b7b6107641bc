/-
# Where the walk ends

The walk of `Initialize` leaves its loops in two ways: it sees the last of `size_`
line ends, or it sees something else than a line end at a position that is `0` as an
`int`.  A stream that has failed offers neither: `peek` gives EOF, `tellg` gives `-1`
and `seekg` does nothing.  The stream fails where the walk steps back from the start of
the file.  That happens at once if the file has fewer than two characters, and
otherwise if the file starts with a line end and the walk is to go on from there.

`scan_cases` follows the walk from any position, and `lastLines_ends_iff` says for which
files it ends.
-/

import QuicNs3.History.Scan

namespace QuicNs3
namespace History

/-- A position the walk takes for the start of the file. -/
def StopAt (content : List Char) (p : ℕ) : Prop := p % 2 ^ 32 = 0 ∧ PlainAt content p

/-- The number of line ends up to a position. -/
def newlines (content : List Char) (p : ℕ) : ℕ := (content.take (p + 1)).count '\n'

section Newlines

variable {content : List Char} {p q : ℕ}

theorem not_plainAt_of_newline (h : content[p]? = some '\n') : ¬ PlainAt content p := by
  rintro ⟨c, hne, hc⟩
  exact hne (Option.some.inj (hc.symm.trans h))

theorem plainAt_of_ne (hp : p < content.length) (h : content[p]? ≠ some '\n') :
    PlainAt content p := by
  refine ⟨content[p], fun hc => h ?_, List.getElem?_eq_getElem hp⟩
  rw [List.getElem?_eq_getElem hp, hc]

theorem newlines_succ_of_newline (h : content[p + 1]? = some '\n') :
    newlines content (p + 1) = newlines content p + 1 := by
  rw [newlines, List.take_add_one, h, List.count_append]
  rfl

theorem newlines_zero_of_newline (h : content[0]? = some '\n') : newlines content 0 = 1 := by
  rw [newlines, List.take_add_one, h]
  rfl

/-- Between two line ends the number stays. -/
theorem newlines_eq_of_plain (hqp : q ≤ p) (h : ∀ r, q < r → r ≤ p → PlainAt content r) :
    newlines content p = newlines content q := by
  induction p, hqp using Nat.le_induction with
  | base => rfl
  | succ p hqp ih =>
    obtain ⟨c, hne, hc⟩ := h (p + 1) (by omega) (Nat.le_refl _)
    rw [← ih fun r hr hrp => h r hr (by omega), newlines, List.take_add_one, hc,
      List.count_append, newlines]
    simp [hne]

end Newlines

section Failed

variable {log : Stream} {n : ℤ} {size fuel i : ℕ}

theorem peek_failed (h : log.fail = true) : log.peek = (none, log) := by
  obtain ⟨content, pos, eof, fail⟩ := log
  obtain rfl : fail = true := h
  simp [Stream.peek, Stream.good]

theorem tellg_failed (h : log.fail = true) : log.tellg = (-1, log) := by
  obtain ⟨content, pos, eof, fail⟩ := log
  obtain rfl : fail = true := h
  simp [Stream.tellg, Stream.good]

theorem seekg_failed (h : log.fail = true) (off : ℤ) (dir : SeekDir) :
    log.seekg off dir = { log with eof := false } := by
  simp [Stream.seekg, h]

/-- A failed stream keeps the inner loop going. -/
theorem scanLine_failed (h : log.fail = true) :
    scanLine fuel log n = .error .outOfFuel := by
  induction fuel generalizing log n with
  | zero => rfl
  | succ fuel ih =>
    have hpos : toInt (-1) ≠ 0 := by decide
    simp only [scanLine, peek_failed h, tellg_failed h, seekg_failed h, hpos, if_false,
      reduceCtorEq]
    exact ih h

theorem scan_failed (h : log.fail = true) (hi : i < size) :
    scan size fuel i log n = .error .outOfFuel := by
  cases fuel with
  | zero => rfl
  | succ fuel =>
    rw [scan, if_pos hi, scanLine_failed h]
    rfl

end Failed

section Walk

variable {content : List Char} {p : ℕ} {n : ℤ} {size i : ℕ}

theorem toInt_eq_zero_iff : toInt p = 0 ↔ p % 2 ^ 32 = 0 := by
  unfold toInt Int.bmod
  dsimp only
  split_ifs <;> omega

/-- **The inner loop** goes back to the nearest line end, or to a position it takes for
the start. -/
theorem scanLine_cases (hp : p < content.length) (hn : n ≠ 0) :
    ∃ q n', q ≤ p ∧
      (∀ fuel, p < fuel → scanLine fuel (goodAt content p) n = .ok (goodAt content q, n')) ∧
      (∀ r, q < r → r ≤ p → PlainAt content r ∧ r % 2 ^ 32 ≠ 0) ∧
      ((n' = 0 ∧ StopAt content q) ∨ (n' ≠ 0 ∧ content[q]? = some '\n')) := by
  induction p generalizing n with
  | zero =>
    by_cases hnewline : content[0]? = some '\n'
    · refine ⟨0, n, Nat.le_refl _, fun fuel hfuel => ?_, fun r hr hr' => by omega,
        .inr ⟨hn, hnewline⟩⟩
      obtain ⟨fuel, rfl⟩ : ∃ m, fuel = m + 1 := ⟨fuel - 1, by omega⟩
      exact scanLine_of_newline hnewline
    · have hplain := plainAt_of_ne hp hnewline
      refine ⟨0, 0, Nat.le_refl _, fun fuel hfuel => ?_, fun r hr hr' => by omega,
        .inl ⟨rfl, rfl, hplain⟩⟩
      obtain ⟨fuel, rfl⟩ : ∃ m, fuel = m + 1 := ⟨fuel - 1, by omega⟩
      exact scanLine_of_start rfl hplain
  | succ p ih =>
    by_cases hnewline : content[p + 1]? = some '\n'
    · refine ⟨p + 1, n, Nat.le_refl _, fun fuel hfuel => ?_, fun r hr hr' => by omega,
        .inr ⟨hn, hnewline⟩⟩
      obtain ⟨fuel, rfl⟩ : ∃ m, fuel = m + 1 := ⟨fuel - 1, by omega⟩
      exact scanLine_of_newline hnewline
    · have hplain := plainAt_of_ne hp hnewline
      by_cases hzero : (p + 1) % 2 ^ 32 = 0
      · refine ⟨p + 1, 0, Nat.le_refl _, fun fuel hfuel => ?_, fun r hr hr' => by omega,
          .inl ⟨rfl, hzero, hplain⟩⟩
        obtain ⟨fuel, rfl⟩ : ∃ m, fuel = m + 1 := ⟨fuel - 1, by omega⟩
        exact scanLine_of_start (toInt_eq_zero_iff.2 hzero) hplain
      · have hpos : toInt (p + 1 : ℕ) ≠ 0 := fun h => hzero (toInt_eq_zero_iff.1 h)
        obtain ⟨q, n', hqp, hscan, hbetween, hend⟩ := ih (by omega) hpos
        refine ⟨q, n', by omega, fun fuel hfuel => ?_, fun r hr hr' => ?_, hend⟩
        · obtain ⟨fuel, rfl⟩ : ∃ m, fuel = m + 1 := ⟨fuel - 1, by omega⟩
          rw [scanLine_of_plain hpos hplain]
          exact hscan fuel (by omega)
        · rcases Nat.lt_or_ge p r with hlt | hge
          · obtain rfl : r = p + 1 := by omega
            exact ⟨hplain, hzero⟩
          · exact hbetween r hr hge

/-- The start of a walk that goes back from the first character. -/
theorem goodAt_seekg_fail : ((goodAt content 0).seekg (-1) .cur).fail = true := rfl

/-- **The walk from a position**, with round `i` to come.  It stops at a position it takes
for the start, or at the line end that completes its rounds, or steps back from a line
end at the start of the file and does not end. -/
theorem scan_cases (hp : p < content.length) (hn : n ≠ 0) (hi : i < size) (hi' : i < 2 ^ 32) :
    (∃ q, q ≤ p ∧ StopAt content q ∧
      (size < 2 ^ 32 → i + newlines content p < size + newlines content q) ∧
      ∃ fuel, scan size fuel i (goodAt content p) n = .ok (goodAt content q, 0)) ∨
    (∃ q, q ≤ p ∧ content[q]? = some '\n' ∧ (∀ r, q < r → r ≤ p → ¬ StopAt content r) ∧
      size < 2 ^ 32 ∧ i + newlines content p + 1 = size + newlines content q ∧
      ∃ fuel n', n' ≠ 0 ∧
        scan size fuel i (goodAt content p) n = .ok ((goodAt content q).seekg (-1) .cur, n')) ∨
    ((∀ r ≤ p, ¬ StopAt content r) ∧ (size < 2 ^ 32 → i + newlines content p < size) ∧
      ∀ fuel r, scan size fuel i (goodAt content p) n ≠ .ok r) := by
  induction p using Nat.strong_induction_on generalizing n i with
  | _ p ih =>
    obtain ⟨q, n', hqp, hline, hbetween, hend⟩ := scanLine_cases hp hn
    have hcount : newlines content p = newlines content q :=
      newlines_eq_of_plain hqp fun r hr hrp => (hbetween r hr hrp).1
    have hnostop : ∀ r, q < r → r ≤ p → ¬ StopAt content r := fun r hr hrp hstop =>
      (hbetween r hr hrp).2 hstop.1
    rcases hend with ⟨rfl, hstop⟩ | ⟨hn', hnewline⟩
    · refine .inl ⟨q, hqp, hstop, fun _ => by omega, p + 2, ?_⟩
      rw [scan, if_pos hi, hline (p + 1) (by omega)]
      rfl
    · -- the rest of the walk, from the character before the line end
      have hscan : ∀ fuel, p < fuel → scan size (fuel + 1) i (goodAt content p) n =
          scan size fuel ((i + 1) % 2 ^ 32) ((goodAt content q).seekg (-1) .cur) n' := by
        intro fuel hfuel
        simp only [scan, if_pos hi, hline fuel hfuel, bind, Except.bind, hn', if_false]
      by_cases hround : (i + 1) % 2 ^ 32 < size
      · cases q with
        | zero =>
          refine .inr (.inr ⟨fun r hrp hstop => ?_, fun hsize => ?_, fun fuel r hr => ?_⟩)
          · rcases Nat.eq_zero_or_pos r with rfl | hpos
            · exact not_plainAt_of_newline hnewline hstop.2
            · exact hnostop r hpos hrp hstop
          · rw [hcount, newlines_zero_of_newline hnewline]
            rw [Nat.mod_eq_of_lt (by omega)] at hround
            exact hround
          · have hlong := scan_mono hr (by omega : fuel ≤ fuel + p + 1 + 1)
            rw [hscan _ (by omega), scan_failed goodAt_seekg_fail hround] at hlong
            cases hlong
        | succ q =>
          rw [goodAt_seekg_back] at hscan
          rw [newlines_succ_of_newline hnewline] at hcount
          have hnostop' : ∀ r, q < r → r ≤ p → ¬ StopAt content r := by
            intro r hr hrp hstop
            rcases Nat.lt_or_ge (q + 1) r with hlt | hge
            · exact hnostop r hlt hrp hstop
            · obtain rfl : r = q + 1 := by omega
              exact not_plainAt_of_newline hnewline hstop.2
          have hmod : size < 2 ^ 32 → (i + 1) % 2 ^ 32 = i + 1 := fun hsize =>
            Nat.mod_eq_of_lt (by omega)
          rcases ih q (by omega) (by omega) hn' hround (Nat.mod_lt _ (by decide)) with
            ⟨q', hq', hstop, hrounds, fuel, hfuel⟩ |
            ⟨q', hq', hnewline', hnone, hsize, hrounds, fuel, n'', hn'', hfuel⟩ |
            ⟨hnone, hrounds, hnever⟩
          · refine .inl ⟨q', by omega, hstop, fun hsize => ?_, fuel + p + 2, ?_⟩
            · have := hrounds hsize
              rw [hmod hsize] at this
              omega
            · rw [hscan _ (by omega)]
              exact scan_mono hfuel (by omega)
          · rw [hmod hsize] at hrounds
            refine .inr (.inl ⟨q', by omega, hnewline', fun r hr hrp => ?_, hsize, by omega,
              fuel + p + 2, n'', hn'', ?_⟩)
            · rcases Nat.lt_or_ge q r with hlt | hge
              · exact hnostop' r hlt hrp
              · exact hnone r hr hge
            · rw [hscan _ (by omega)]
              exact scan_mono hfuel (by omega)
          · refine .inr (.inr ⟨fun r hrp => ?_, fun hsize => ?_, fun fuel r hr => ?_⟩)
            · rcases Nat.lt_or_ge q r with hlt | hge
              · exact hnostop' r hlt hrp
              · exact hnone r hge
            · have := hrounds hsize
              rw [hmod hsize] at this
              omega
            · have hlong := scan_mono hr (by omega : fuel ≤ fuel + p + 1 + 1)
              rw [hscan _ (by omega)] at hlong
              exact hnever _ _ hlong
      · -- this line end was the last
        have hsize : size < 2 ^ 32 := by omega
        have hlast : i + 1 = size := by
          rw [Nat.mod_eq_of_lt (by omega)] at hround
          omega
        refine .inr (.inl ⟨q, hqp, hnewline, hnostop, hsize, by omega, p + 3, n', hn', ?_⟩)
        rw [hscan _ (by omega), scan, if_neg hround]

end Walk

section LastLines

variable {content : List Char} {size : ℕ}

/-- The files on which the walk ends.  They have two characters, and the walk meets a
position it takes for the start, which in a file of at most 4 GiB means that the file
does not start with a line end, or there are `size_` line ends before the last
character. -/
def WalkEnds (size : ℕ) (content : List Char) : Prop :=
  2 ≤ content.length ∧
    ((∃ q, q + 2 ≤ content.length ∧ q % 2 ^ 32 = 0 ∧ content[q]? ≠ some '\n') ∨
      (size < 2 ^ 32 ∧ size ≤ content.dropLast.count '\n'))

/-- Two characters before the end. -/
theorem openAte_seekg_two (h : 2 ≤ content.length) :
    (Stream.openAte content).seekg (-2) .cur = goodAt content (content.length - 2) := by
  have hpos : ¬ (-2 + (content.length : ℤ) < 0) := by omega
  have htarget : (-2 + (content.length : ℤ)).toNat = content.length - 2 := by omega
  simp [Stream.seekg, Stream.openAte, goodAt, hpos, htarget]

theorem openAte_seekg_fail (h : content.length < 2) :
    ((Stream.openAte content).seekg (-2) .cur).fail = true := by
  have hneg : -2 + (content.length : ℤ) < 0 := by omega
  simp [Stream.seekg, Stream.openAte, hneg]

theorem newlines_before_last (h : 2 ≤ content.length) :
    newlines content (content.length - 2) = content.dropLast.count '\n' := by
  rw [newlines, List.dropLast_eq_take, show content.length - 2 + 1 = content.length - 1 by omega]

/-- What is loaded after the walk from `p`, if that ends: the whole file, or what follows
the line end that completed the rounds. -/
theorem lastLines_of_scan {fuel : ℕ} {log : Stream} {n : ℤ}
    (h : scan size fuel 0 ((Stream.openAte content).seekg (-2) .cur) (-2) = .ok (log, n)) :
    lastLines fuel size content =
      .ok (if n = 0 then log.clear.seekg 0 .beg else log.seekg 2 .cur) := by
  rw [lastLines, h]
  simp only [bind, Except.bind]
  split_ifs <;> rfl

theorem exists_scan_of_lastLines {fuel : ℕ} {log : Stream}
    (h : lastLines fuel size content = .ok log) :
    ∃ r, scan size fuel 0 ((Stream.openAte content).seekg (-2) .cur) (-2) = .ok r := by
  cases hscan : scan size fuel 0 ((Stream.openAte content).seekg (-2) .cur) (-2) with
  | error e =>
    rw [lastLines, hscan] at h
    cases h
  | ok r => exact ⟨r, rfl⟩

/-- A walk that does not return was not given enough rounds. -/
theorem lastLines_error {fuel : ℕ} {e : Stop} (h : lastLines fuel size content = .error e) :
    e = .outOfFuel := by
  have hline : ∀ fuel log n e, scanLine fuel log n = .error e → e = .outOfFuel := by
    intro fuel
    induction fuel with
    | zero => exact fun _ _ _ h => (Except.error.inj h).symm
    | succ fuel ih =>
      intro log n e h
      simp only [scanLine] at h
      split_ifs at h
      exact ih _ _ _ h
  have hscan : ∀ fuel i log n e, scan size fuel i log n = .error e → e = .outOfFuel := by
    intro fuel
    induction fuel with
    | zero => exact fun _ _ _ _ h => (Except.error.inj h).symm
    | succ fuel ih =>
      intro i log n e h
      simp only [scan] at h
      split_ifs at h
      cases hfirst : scanLine fuel log n with
      | error e' =>
        rw [hfirst] at h
        obtain rfl := Except.error.inj h
        exact hline _ _ _ _ hfirst
      | ok r =>
        simp only [hfirst, bind, Except.bind] at h
        split_ifs at h
        · cases h
        · exact ih _ _ _ _ h
  cases hwalk : scan size fuel 0 ((Stream.openAte content).seekg (-2) .cur) (-2) with
  | error e' =>
    rw [lastLines, hwalk] at h
    obtain rfl := Except.error.inj h
    exact hscan _ _ _ _ _ hwalk
  | ok r =>
    rw [lastLines_of_scan hwalk] at h
    cases h

/-- **For which files the walk ends.** -/
theorem lastLines_ends_iff (hsize : 0 < size) (content : List Char) :
    (∃ fuel log, lastLines fuel size content = .ok log) ↔ WalkEnds size content := by
  by_cases hlen : 2 ≤ content.length
  · have hp : content.length - 2 < content.length := by omega
    have hstop : ∀ q, q + 2 ≤ content.length → (StopAt content q ↔
        q % 2 ^ 32 = 0 ∧ content[q]? ≠ some '\n') := fun q hq =>
      ⟨fun h => ⟨h.1, fun hc => not_plainAt_of_newline hc h.2⟩,
        fun h => ⟨h.1, plainAt_of_ne (by omega) h.2⟩⟩
    have hcases := scan_cases (n := -2) hp (by decide) hsize (by decide : 0 < 2 ^ 32)
    rw [newlines_before_last hlen, ← openAte_seekg_two hlen] at hcases
    rcases hcases with ⟨q, hq, hat, -, fuel, hscan⟩ |
      ⟨q, hq, hnewline, -, hlt, hrounds, fuel, n, hn, hscan⟩ | ⟨hnone, hrounds, hnever⟩
    · refine ⟨fun _ => ⟨hlen, .inl ⟨q, by omega, (hstop q (by omega)).1 hat⟩⟩, fun _ => ?_⟩
      exact ⟨fuel, _, lastLines_of_scan hscan⟩
    · refine ⟨fun _ => ⟨hlen, .inr ⟨hlt, ?_⟩⟩, fun _ => ⟨fuel, _, lastLines_of_scan hscan⟩⟩
      -- the line end at `q` is one of them
      have hpos : 0 < newlines content q := by
        refine List.count_pos_iff.2 (List.mem_iff_getElem?.2 ⟨q, ?_⟩)
        rw [List.getElem?_take_of_lt (by omega), hnewline]
      omega
    · constructor
      · rintro ⟨fuel, log, hlog⟩
        obtain ⟨r, hr⟩ := exists_scan_of_lastLines hlog
        exact absurd hr (hnever fuel r)
      · rintro ⟨-, ⟨q, hq, hat⟩ | ⟨hlt, hle⟩⟩
        · exact absurd ((hstop q hq).2 hat) (hnone q (by omega))
        · have := hrounds hlt
          omega
  · constructor
    · rintro ⟨fuel, log, hlog⟩
      obtain ⟨r, hr⟩ := exists_scan_of_lastLines hlog
      rw [scan_failed (openAte_seekg_fail (by omega)) hsize] at hr
      cases hr
    · exact fun h => absurd h.1 hlen

/-- One address, and more lines asked for than there are. -/
theorem lastLines_ends_one_address :
    ∃ fuel log, lastLines fuel 2000 "1.2.3.4,7\n".toList = .ok log := by
  refine (lastLines_ends_iff (by decide) _).2 ⟨by decide, .inl ⟨0, by decide, rfl, by decide⟩⟩

/-- **An empty file keeps the walk going forever.** -/
theorem lastLines_empty_never : ¬ ∃ fuel log, lastLines fuel 2000 [] = .ok log := by
  rintro ⟨fuel, log, hlog⟩
  obtain ⟨r, hr⟩ := exists_scan_of_lastLines hlog
  rw [scan_failed (openAte_seekg_fail (by decide)) (by decide)] at hr
  cases hr

end LastLines

end History
end QuicNs3
