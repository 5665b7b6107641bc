/-
# The walk to the last lines

`Initialize` loads the last `size_` lines of the address file.  It opens the file
at its end and walks back over one line end after the other.  On a file whose
lines are not empty the walk stops at the last character of the line before the
last `size_` lines, or at the start of the file if there are no more than that
(`scan_spec`), so that reading on from there gives exactly these lines
(`lastLines_spec`).
-/

import QuicNs3.History.Query

namespace QuicNs3
namespace History

/-- A good stream at position `p`. -/
def goodAt (content : List Char) (p : ℕ) : Stream := ⟨content, p, false, false⟩

/-- The file has a character at `i` that does not end a line. -/
def PlainAt (content : List Char) (i : ℕ) : Prop := ∃ c, c ≠ '\n' ∧ content[i]? = some c

section Steps

variable {content : List Char} {p : ℕ} {c : Char} {n : ℤ} {fuel : ℕ}

@[simp] theorem goodAt_rest : (goodAt content p).rest = content.drop p := rfl

theorem goodAt_peek (hc : content[p]? = some c) :
    (goodAt content p).peek = (some c, goodAt content p) := by
  simp [Stream.peek, Stream.good, goodAt, hc]

theorem goodAt_tellg : (goodAt content p).tellg = ((p : ℤ), goodAt content p) := rfl

theorem goodAt_seekg_back : (goodAt content (p + 1)).seekg (-1) .cur = goodAt content p := by
  simp [Stream.seekg, goodAt]

theorem goodAt_seekg_two : (goodAt content p).seekg 2 .cur = goodAt content (p + 2) := by
  have htarget : (2 + (p : ℤ)).toNat = p + 2 := by omega
  have hpos : ¬ (2 + (p : ℤ) < 0) := by omega
  simp [Stream.seekg, goodAt, htarget, hpos]

theorem toInt_natCast (hp : p < 2 ^ 31) : toInt p = p := by
  unfold toInt
  rw [Int.bmod_eq_of_le] <;> omega

theorem scanLine_of_newline (hc : content[p]? = some '\n') :
    scanLine (fuel + 1) (goodAt content p) n = .ok (goodAt content p, n) := by
  simp [scanLine, goodAt_peek hc]

theorem scanLine_of_start (hp : toInt p = 0) (hc : PlainAt content p) :
    scanLine (fuel + 1) (goodAt content p) n = .ok (goodAt content p, 0) := by
  obtain ⟨c, hne, hc⟩ := hc
  simp [scanLine, goodAt_peek hc, hne, goodAt_tellg, hp]

theorem scanLine_of_plain (hp : toInt (p + 1 : ℕ) ≠ 0) (hc : PlainAt content (p + 1)) :
    scanLine (fuel + 1) (goodAt content (p + 1)) n =
      scanLine fuel (goodAt content p) (toInt (p + 1 : ℕ)) := by
  obtain ⟨c, hne, hc⟩ := hc
  simp only [scanLine, goodAt_peek hc, Option.some.injEq, hne, if_false, goodAt_tellg, hp,
    goodAt_seekg_back]

/-- From inside the first line the walk reaches the start of the file. -/
theorem scanLine_first (hlen : p < 2 ^ 31) (hplain : ∀ i ≤ p, PlainAt content i)
    (hfuel : p < fuel) : scanLine fuel (goodAt content p) n = .ok (goodAt content 0, 0) := by
  induction p generalizing fuel n with
  | zero =>
    obtain ⟨fuel, rfl⟩ : ∃ m, fuel = m + 1 := ⟨fuel - 1, by omega⟩
    exact scanLine_of_start rfl (hplain 0 (Nat.le_refl 0))
  | succ p ih =>
    obtain ⟨fuel, rfl⟩ : ∃ m, fuel = m + 1 := ⟨fuel - 1, by omega⟩
    rw [scanLine_of_plain (by rw [toInt_natCast hlen]; omega) (hplain (p + 1) (Nat.le_refl _))]
    exact ih (by omega) (fun i hi => hplain i (by omega)) (by omega)

/-- From inside a later line it reaches the end of the line before. -/
theorem scanLine_later {q j : ℕ} (hlen : q + 1 + j < 2 ^ 31) (hq : content[q]? = some '\n')
    (hplain : ∀ i, q < i → i ≤ q + 1 + j → PlainAt content i) (hfuel : j + 1 < fuel) :
    scanLine fuel (goodAt content (q + 1 + j)) n = .ok (goodAt content q, (q + 1 : ℕ)) := by
  induction j generalizing fuel n with
  | zero =>
    obtain ⟨fuel, rfl⟩ : ∃ m, fuel = m + 2 := ⟨fuel - 2, by omega⟩
    have hint : toInt (q + 1 : ℕ) = (q + 1 : ℕ) := toInt_natCast (by omega)
    rw [Nat.add_zero, scanLine_of_plain (by omega) (hplain (q + 1) (by omega) (by omega)),
      scanLine_of_newline hq, hint]
  | succ j ih =>
    obtain ⟨fuel, rfl⟩ : ∃ m, fuel = m + 1 := ⟨fuel - 1, by omega⟩
    have hint : toInt (q + 1 + j + 1 : ℕ) = (q + 1 + j + 1 : ℕ) := toInt_natCast (by omega)
    rw [← Nat.add_assoc, scanLine_of_plain (by omega) (hplain _ (by omega) (by omega))]
    exact ih (by omega) (fun i hi hi' => hplain i hi (by omega)) (by omega)

end Steps

/-- The position at which the line after `pre` starts. -/
def startOf (pre : List (List Char)) : ℕ := (terminated '\n' pre).length

@[simp] theorem startOf_concat (pre : List (List Char)) (l : List Char) :
    startOf (pre ++ [l]) = startOf pre + l.length + 1 := by
  simp [startOf]; omega

/-- Lines that are not empty. -/
def Full (ls : List (List Char)) : Prop := ∀ l ∈ ls, '\n' ∉ l ∧ l ≠ []

section Lines

variable {content l tail : List Char} {pre : List (List Char)} {i j : ℕ}

theorem plainAt_line (hcontent : content = terminated '\n' pre ++ (l ++ tail)) (hl : '\n' ∉ l)
    (hj : j < l.length) : PlainAt content (startOf pre + j) := by
  refine ⟨l[j], fun h => hl (h ▸ List.getElem_mem hj), ?_⟩
  rw [hcontent, startOf, List.getElem?_append_right (by omega), Nat.add_sub_cancel_left,
    List.getElem?_append_left hj, List.getElem?_eq_getElem hj]

theorem newline_before {l' : List Char}
    (hcontent : content = terminated '\n' (pre ++ [l']) ++ (l ++ tail)) :
    content[startOf pre + l'.length]? = some '\n' := by
  rw [hcontent, terminated_append, terminated_cons, terminated_nil, List.append_assoc,
    List.append_assoc, startOf, List.getElem?_append_right (by omega), Nat.add_sub_cancel_left]
  simp

/-- **The walk stops where the last lines start.**  It begins inside the line `l`,
has `k` rounds left and `pre` before it. -/
theorem scan_spec {size : ℕ} (hsize : size < 2 ^ 32) (hlen : content.length < 2 ^ 31)
    (k : ℕ) {fuel : ℕ} {n : ℤ} (hcontent : content = terminated '\n' pre ++ (l ++ tail))
    (hfull : Full (pre ++ [l])) (hj : j < l.length) (hk : k = 0 → j + 1 = l.length)
    (hik : i + k = size) (hn : n ≠ 0) (hfuel : startOf pre + j + 2 ≤ fuel) :
    ∃ p n', scan size fuel i (goodAt content (startOf pre + j)) n = .ok (goodAt content p, n') ∧
      ((n' = 0 ∧ pre.length < k) ∨
        (n' ≠ 0 ∧ p + 2 = startOf ((pre ++ [l]).take (pre.length + 1 - k)))) := by
  induction k generalizing pre l tail i j fuel n with
  | zero =>
    obtain ⟨fuel, rfl⟩ : ∃ m, fuel = m + 1 := ⟨fuel - 1, by omega⟩
    refine ⟨_, n, by rw [scan, if_neg (by omega)], .inr ⟨hn, ?_⟩⟩
    have := hk rfl
    rw [Nat.sub_zero, List.take_of_length_le (by simp), startOf_concat]
    omega
  | succ k ih =>
    obtain ⟨fuel, rfl⟩ : ∃ m, fuel = m + 1 := ⟨fuel - 1, by omega⟩
    have hl : '\n' ∉ l := (hfull l (by simp)).1
    have hend : startOf pre + l.length ≤ content.length := by
      rw [hcontent]; simp [startOf]
    rw [scan, if_pos (by omega)]
    rcases List.eq_nil_or_concat' pre with rfl | ⟨pre, l', rfl⟩
    · -- `l` is the first line
      have hplain : ∀ i ≤ startOf [] + j, PlainAt content i := fun i hi => by
        have hi' : i ≤ j := by simpa [startOf] using hi
        simpa [startOf] using plainAt_line hcontent hl (Nat.lt_of_le_of_lt hi' hj)
      rw [scanLine_first (by omega) hplain (by omega)]
      exact ⟨0, 0, rfl, .inl ⟨rfl, by simp⟩⟩
    · have hfull' : Full (pre ++ [l']) := fun x hx => hfull x (List.mem_append_left _ hx)
      obtain ⟨hl', hne⟩ := hfull' l' (by simp)
      obtain ⟨m, hm⟩ : ∃ m, l'.length = m + 1 :=
        ⟨l'.length - 1, by have := List.length_pos_iff.2 hne; omega⟩
      have hstart : startOf (pre ++ [l']) + j = startOf pre + l'.length + 1 + j := by
        rw [startOf_concat]
      rw [startOf_concat] at hend hfuel
      have hline : scanLine fuel (goodAt content (startOf (pre ++ [l']) + j)) n =
          .ok (goodAt content (startOf pre + l'.length), (startOf pre + l'.length + 1 : ℕ)) := by
        rw [hstart]
        refine scanLine_later (by omega) (newline_before hcontent) (fun i hi hi' => ?_) (by omega)
        have := plainAt_line (j := i - startOf (pre ++ [l'])) hcontent hl
          (by rw [startOf_concat]; omega)
        rwa [Nat.add_sub_cancel' (by rw [startOf_concat]; omega)] at this
      have hnz : ((startOf pre + l'.length + 1 : ℕ) : ℤ) ≠ 0 := by omega
      have hback : (goodAt content (startOf pre + l'.length)).seekg (-1) .cur =
          goodAt content (startOf pre + m) := by
        rw [hm, ← Nat.add_assoc, goodAt_seekg_back]
      have hsplit : content = terminated '\n' pre ++ (l' ++ '\n' :: (l ++ tail)) := by
        simpa using hcontent
      obtain ⟨p, n', hscan, hres⟩ := ih (i := i + 1) hsplit hfull'
        (by omega : m < l'.length) (fun _ => hm.symm) (by omega) hnz
        (by omega : startOf pre + m + 2 ≤ fuel)
      refine ⟨p, n', ?_, ?_⟩
      · simp only [hline, bind, Except.bind, hnz, if_false, hback]
        rwa [Nat.mod_eq_of_lt (by omega)]
      · rcases hres with ⟨rfl, hlt⟩ | ⟨hn', hp⟩
        · exact .inl ⟨rfl, by simpa using hlt⟩
        · refine .inr ⟨hn', ?_⟩
          rw [hp, List.length_append, List.length_singleton,
            show pre.length + 1 + 1 - (k + 1) = pre.length + 1 - k by omega]
          exact congrArg startOf (List.take_append_of_le_length (by simp)).symm

end Lines

section LastLines

variable {content : List Char} {ls : List (List Char)} {size : ℕ}

/-- A file of lines, of which the last may lack its newline. -/
def fileText (ls : List (List Char)) (final : Bool) : List Char :=
  if final then terminated '\n' ls else separated '\n' ls

theorem written_fileText (hfull : Full ls) (final : Bool) :
    Written '\n' ls (fileText ls final) := by
  refine ⟨fun l hl => (hfull l hl).1, ?_⟩
  cases final with
  | true => exact .inl rfl
  | false =>
    rcases List.eq_nil_or_concat' ls with rfl | ⟨ls', l, rfl⟩
    · exact .inl rfl
    · exact .inr ⟨ls', l, rfl, (hfull l (by simp)).2, rfl⟩

theorem fileText_append (ls : List (List Char)) {ls' : List (List Char)} (hne : ls' ≠ [])
    (final : Bool) :
    fileText (ls ++ ls') final = terminated '\n' ls ++ fileText ls' final := by
  cases final with
  | true => exact terminated_append ls ls'
  | false =>
    cases ls' with
    | nil => exact absurd rfl hne
    | cons l ls' => exact separated_append_cons ls

/-- The start of the walk, two characters before the end, is inside the last line. -/
theorem openAte_seekg (pre : List (List Char)) {l : List Char} (hl : 2 ≤ l.length) (final : Bool) :
    ∃ j tail, fileText (pre ++ [l]) final = terminated '\n' pre ++ (l ++ tail) ∧ j < l.length ∧
      (Stream.openAte (fileText (pre ++ [l]) final)).seekg (-2) .cur =
        goodAt (fileText (pre ++ [l]) final) (startOf pre + j) := by
  have hback : ∀ {text : List Char} {p : ℕ}, text.length = p + 2 →
      (Stream.openAte text).seekg (-2) .cur = goodAt text p := by
    intro text p htext
    have hpos : ¬ (-2 + (text.length : ℤ) < 0) := by omega
    have htarget : (-2 + (text.length : ℤ)).toNat = p := by omega
    simp [Stream.seekg, Stream.openAte, goodAt, hpos, htarget]
  rw [fileText_append pre (by simp)]
  cases final with
  | true =>
    refine ⟨l.length - 1, ['\n'], by simp [fileText], by omega, hback ?_⟩
    simp [fileText, startOf]; omega
  | false =>
    refine ⟨l.length - 2, [], by simp [fileText], by omega, hback ?_⟩
    simp [fileText, startOf]; omega

/-- **What is loaded are the last `size_` lines.** -/
theorem lastLines_spec (hsize : size < 2 ^ 32) (hpos : 0 < size) (hfull : Full ls)
    (hlast : ∀ l ∈ ls, 2 ≤ l.length) (hne : ls ≠ []) {final : Bool}
    (hlen : (fileText ls final).length < 2 ^ 31) {fuel : ℕ}
    (hfuel : (fileText ls final).length + 2 ≤ fuel) :
    ∃ log, lastLines fuel size (fileText ls final) = .ok log ∧ log.good ∧
      Written '\n' (ls.drop (ls.length - size)) log.rest := by
  obtain ⟨pre, l, rfl⟩ := (List.eq_nil_or_concat' ls).resolve_left hne
  obtain ⟨j, tail, htext, hj, hseek⟩ := openAte_seekg pre (hlast l (by simp)) final
  have hstart : startOf pre + l.length ≤ (fileText (pre ++ [l]) final).length := by
    rw [htext]; simp [startOf]
  obtain ⟨p, n, hscan, hres⟩ := scan_spec (i := 0) (n := -2) hsize hlen size htext hfull hj
    (by omega) (by omega) (by omega) (by omega : startOf pre + j + 2 ≤ fuel)
  -- in either case reading goes on from the start of the last lines
  have hfrom : lastLines fuel size (fileText (pre ++ [l]) final) =
      .ok (goodAt (fileText (pre ++ [l]) final)
        (startOf ((pre ++ [l]).take (pre.length + 1 - size)))) := by
    rw [lastLines, hseek, hscan]
    rcases hres with ⟨rfl, hlt⟩ | ⟨hn, hp⟩
    · rw [show pre.length + 1 - size = 0 by omega]
      rfl
    · simp only [bind, Except.bind, hn, if_false, goodAt_seekg_two, hp]
      rfl
  refine ⟨_, hfrom, rfl, ?_⟩
  have hlength : (pre ++ [l]).length = pre.length + 1 := by simp
  have hdrop : (pre ++ [l]).drop (pre.length + 1 - size) ≠ [] := by
    rw [Ne, List.drop_eq_nil_iff]; omega
  have hsplit := fileText_append ((pre ++ [l]).take (pre.length + 1 - size)) hdrop final
  rw [List.take_append_drop] at hsplit
  rw [goodAt_rest, hlength, hsplit, startOf, List.drop_left]
  exact written_fileText (fun x hx => hfull x (List.mem_of_mem_drop hx)) final

end LastLines

section Fuel

variable {log : Stream} {n : ℤ} {r : Stream × ℤ} {size fuel fuel' i : ℕ}

theorem scanLine_mono (h : scanLine fuel log n = .ok r) (hle : fuel ≤ fuel') :
    scanLine fuel' log n = .ok r := by
  induction fuel generalizing fuel' log n with
  | zero => cases h
  | succ fuel ih =>
    obtain ⟨fuel', rfl⟩ : ∃ m, fuel' = m + 1 := ⟨fuel' - 1, by omega⟩
    simp only [scanLine] at h ⊢
    split_ifs at h ⊢
    · exact h
    · exact h
    · exact ih h (by omega)

theorem scan_mono (h : scan size fuel i log n = .ok r) (hle : fuel ≤ fuel') :
    scan size fuel' i log n = .ok r := by
  induction fuel generalizing fuel' log n i with
  | zero => cases h
  | succ fuel ih =>
    obtain ⟨fuel', rfl⟩ : ∃ m, fuel' = m + 1 := ⟨fuel' - 1, by omega⟩
    simp only [scan] at h ⊢
    split_ifs at h ⊢
    · cases hline : scanLine fuel log n with
      | error e => simp [hline, bind, Except.bind] at h
      | ok r' =>
        rw [scanLine_mono hline (by omega)]
        simp only [hline, bind, Except.bind] at h ⊢
        split_ifs at h ⊢
        · exact h
        · exact ih h (by omega)
    · exact h

/-- The stream does not depend on how many rounds were allowed. -/
theorem lastLines_mono {content : List Char} (h : lastLines fuel size content = .ok log)
    (hle : fuel ≤ fuel') : lastLines fuel' size content = .ok log := by
  simp only [lastLines] at h ⊢
  cases hscan : scan size fuel 0 ((Stream.openAte content).seekg (-2) .cur) (-2) with
  | error e => simp [hscan, bind, Except.bind] at h
  | ok r =>
    rw [scan_mono hscan hle]
    simpa [hscan, bind, Except.bind] using h

end Fuel

end History
end QuicNs3
