/-
# Input streams

What `model/net/tools/quic/quic_simple_dispatcher.cc` uses of `std::ifstream` and
`std::istringstream`, as libstdc++ has them.  A stream is its characters, a read
position and the bits `eofbit` and `failbit`; every operation begins with a sentry
that sets `failbit` on a stream that is not good.

| operation | on a good stream | otherwise |
| --- | --- | --- |
| `peek` | the character, or `eofbit` at the end | EOF, `failbit` |
| `tellg` | the position | `-1`, `failbit` |
| `seekg` | the new position, `failbit` if before the start | clears `eofbit`, then moves if good |
| `getline` | a line, `eofbit` if no delimiter ends it | `failbit` |

`forLines` is the loop `while (getline(stream, s, delim))`.  On a text that is
written as the lines `ls` it runs its body on each of them (`forLines_eq`).
-/

import Mathlib.Algebra.Order.Ring.Int
import Mathlib.Data.List.Basic
import Mathlib.Data.List.TakeWhile

namespace QuicNs3
namespace History

/-- Why a function does not return: `exit (1)`, a vector access outside the vector,
a null pointer, or more rounds of a loop than the model was given. -/
inductive Stop
  | exit
  | outOfRange
  | nullPointer
  | outOfFuel
deriving DecidableEq, Repr

/-- An input stream. -/
structure Stream where
  content : List Char
  pos : ℕ
  eof : Bool
  fail : Bool
deriving DecidableEq, Repr

/-- The origin of a `seekg`. -/
inductive SeekDir
  | beg
  | cur
  | fin
deriving DecidableEq, Repr

namespace Stream

/-- A stream opened on a text. -/
def «open» (content : List Char) : Stream := ⟨content, 0, false, false⟩

/-- A stream opened with `std::ios::ate`, at its end. -/
def openAte (content : List Char) : Stream := ⟨content, content.length, false, false⟩

def good (s : Stream) : Bool := !s.eof && !s.fail

/-- What is not yet read. -/
def rest (s : Stream) : List Char := s.content.drop s.pos

@[simp] theorem open_rest (content : List Char) : (Stream.open content).rest = content := rfl

/-- `peek()`, with `none` for EOF. -/
def peek (s : Stream) : Option Char × Stream :=
  if s.good then
    match s.content[s.pos]? with
    | some c => (some c, s)
    | none => (none, { s with eof := true })
  else (none, { s with fail := true })

/-- `tellg()`. -/
def tellg (s : Stream) : ℤ × Stream :=
  if s.good then (s.pos, s) else (-1, { s with fail := true })

/-- `clear()`. -/
def clear (s : Stream) : Stream := { s with eof := false, fail := false }

/-- `seekg(off, dir)`. -/
def seekg (s : Stream) (off : ℤ) (dir : SeekDir) : Stream :=
  let s := { s with eof := false }
  let target := off + match dir with
    | .beg => 0
    | .cur => (s.pos : ℤ)
    | .fin => (s.content.length : ℤ)
  if s.fail then s
  else if target < 0 then { s with fail := true }
  else { s with pos := target.toNat }

/-- `getline(stream, s, delim)`: the line, and `none` if the stream fails. -/
def getline (delim : Char) (s : Stream) : Option (List Char × Stream) :=
  if s.good ∧ s.rest ≠ [] then
    let line := s.rest.takeWhile (· != delim)
    if line.length < s.rest.length then
      some (line, { s with pos := s.pos + line.length + 1 })
    else some (line, { s with pos := s.pos + line.length, eof := true })
  else none

variable {σ : Type}

/-- At most `n` rounds of `while (getline(stream, s, delim)) body`. -/
def forLinesWithin (delim : Char) (body : σ → List Char → Except Stop σ) :
    ℕ → Stream → σ → Except Stop σ
  | 0, _, _ => .error .outOfFuel
  | n + 1, s, x =>
    match s.getline delim with
    | none => .ok x
    | some (line, s) => do forLinesWithin delim body n s (← body x line)

/-- `while (getline(stream, s, delim)) body`.  A round reads at least one character. -/
def forLines (delim : Char) (body : σ → List Char → Except Stop σ) (s : Stream) (x : σ) :
    Except Stop σ :=
  forLinesWithin delim body (s.content.length + 1) s x

end Stream

/-- The text of these lines, each followed by the delimiter. -/
def terminated (delim : Char) (ls : List (List Char)) : List Char := ls.flatMap (· ++ [delim])

/-- The text of these lines with the delimiter between them. -/
def separated (delim : Char) (ls : List (List Char)) : List Char := [delim].intercalate ls

section Texts

variable {d : Char} {l : List Char} {ls : List (List Char)}

@[simp] theorem terminated_nil : terminated d [] = [] := rfl

@[simp] theorem terminated_cons : terminated d (l :: ls) = l ++ d :: terminated d ls := by
  simp [terminated]

@[simp] theorem terminated_append (ls ls' : List (List Char)) :
    terminated d (ls ++ ls') = terminated d ls ++ terminated d ls' := List.flatMap_append

@[simp] theorem separated_singleton : separated d [l] = l := by
  simp [separated]

@[simp] theorem separated_cons_cons (l' : List Char) :
    separated d (l :: l' :: ls) = l ++ d :: separated d (l' :: ls) := by
  simp [separated]

theorem separated_append_cons (ls' : List (List Char)) :
    separated d (ls' ++ l :: ls) = terminated d ls' ++ separated d (l :: ls) := by
  induction ls' with
  | nil => rfl
  | cons l' ls' ih =>
    cases ls' with
    | nil => simp
    | cons l'' ls' => simp_all

end Texts

/-- `text` is written as the lines `ls`: with a delimiter after each, or after each
but the last, which then is not empty. -/
def Written (d : Char) (ls : List (List Char)) (text : List Char) : Prop :=
  (∀ l ∈ ls, d ∉ l) ∧
    (text = terminated d ls ∨ ∃ ls' l, ls = ls' ++ [l] ∧ l ≠ [] ∧ text = separated d ls)

section ReadLines

variable {σ : Type} {d : Char} {l text : List Char} {ls : List (List Char)} {s : Stream}

/-- A delimited line is read with its delimiter. -/
theorem getline_of_delim (hs : s.good) (hl : d ∉ l) (hr : s.rest = l ++ d :: text) :
    s.getline d = some (l, { s with pos := s.pos + l.length + 1 }) := by
  have htake : (l ++ d :: text).takeWhile (· != d) = l := by
    rw [List.takeWhile_append_of_pos fun x hx => bne_iff_ne.2 (ne_of_mem_of_not_mem hx hl)]
    simp
  simp [Stream.getline, hs, hr, htake]

/-- The last line is read to the end if no delimiter ends it. -/
theorem getline_of_end (hs : s.good) (hl : d ∉ l) (hne : l ≠ []) (hr : s.rest = l) :
    s.getline d = some (l, { s with pos := s.pos + l.length, eof := true }) := by
  have htake : l.takeWhile (· != d) = l :=
    List.takeWhile_eq_self_iff.2 fun x hx => bne_iff_ne.2 (ne_of_mem_of_not_mem hx hl)
  simp [Stream.getline, hs, hr, htake, hne]

theorem written_cons (h : Written d (l :: ls) text) :
    (∃ text', text = l ++ d :: text' ∧ Written d ls text') ∨ (ls = [] ∧ l ≠ [] ∧ text = l) := by
  obtain ⟨hd, rfl | ⟨ls', l', hls, hl', rfl⟩⟩ := h
  · refine .inl ⟨terminated d ls, terminated_cons, fun l hl => hd l (.tail _ hl), .inl rfl⟩
  · cases ls with
    | nil =>
      obtain ⟨rfl, rfl⟩ : ls' = [] ∧ l = l' := by
        cases ls' <;> simp_all
      exact .inr ⟨rfl, hl', separated_singleton⟩
    | cons l₂ ls =>
      refine .inl ⟨separated d (l₂ :: ls), separated_cons_cons l₂,
        fun l hl => hd l (.tail _ hl), .inr ?_⟩
      cases ls' with
      | nil => simp at hls
      | cons _ ls' => exact ⟨ls', l', by simpa using (List.cons.inj hls).2, hl', rfl⟩

theorem forLinesWithin_eq (body : σ → List Char → Except Stop σ) {n : ℕ} (hs : s.good)
    (hr : Written d ls s.rest) (hn : ls.length < n) (x : σ) :
    Stream.forLinesWithin d body n s x = ls.foldlM body x := by
  induction ls generalizing n s x with
  | nil =>
    obtain ⟨n, rfl⟩ : ∃ m, n = m + 1 := ⟨n - 1, by simp at hn; omega⟩
    obtain ⟨-, hnil | ⟨_, _, hnil, -⟩⟩ := hr
    · simp [Stream.forLinesWithin, Stream.getline, hnil]
      rfl
    · simp at hnil
  | cons l ls ih =>
    obtain ⟨n, rfl⟩ : ∃ m, n = m + 1 := ⟨n - 1, by omega⟩
    have hd : d ∉ l := hr.1 l (List.mem_cons_self ..)
    rcases written_cons hr with ⟨text', htext, hw⟩ | ⟨rfl, hne, htext⟩
    · have hrest : Stream.rest { s with pos := s.pos + l.length + 1 } = text' := by
        rw [Stream.rest, Nat.add_assoc, ← List.drop_drop, ← Stream.rest, htext]
        simp
      rw [Stream.forLinesWithin, getline_of_delim hs hd htext, List.foldlM_cons]
      exact bind_congr fun y => ih (s := { s with pos := s.pos + l.length + 1 }) hs
        (hrest.symm ▸ hw) (by simpa using hn) y
    · rw [Stream.forLinesWithin, getline_of_end hs hd hne htext, List.foldlM_cons]
      refine bind_congr fun y => ?_
      obtain ⟨n, rfl⟩ : ∃ m, n = m + 1 := ⟨n - 1, by simp at hn; omega⟩
      simp [Stream.forLinesWithin, Stream.getline, Stream.good]
      rfl

theorem length_le_of_written (h : Written d ls text) : ls.length ≤ text.length := by
  obtain ⟨-, rfl | ⟨ls', l, rfl, hl, rfl⟩⟩ := h
  · induction ls with
    | nil => simp
    | cons l ls ih => simp; omega
  · have := List.length_pos_iff.2 hl
    rw [separated_append_cons]
    induction ls' with
    | nil => simp; omega
    | cons l' ls' ih => simp at ih ⊢; omega

/-- **The loop runs its body on the lines of the text.** -/
theorem forLines_eq (body : σ → List Char → Except Stop σ) (hs : s.good)
    (hr : Written d ls s.rest) (x : σ) : s.forLines d body x = ls.foldlM body x := by
  refine forLinesWithin_eq body hs hr (Nat.lt_succ_of_le ?_) x
  calc ls.length ≤ s.rest.length := length_le_of_written hr
    _ ≤ s.content.length := by simp [Stream.rest]

end ReadLines

/-- The lines of a text, as `getline` reads them: what a delimiter at the end leaves
behind is no line. -/
def pieces (d : Char) (text : List Char) : List (List Char) :=
  if (text.splitOn d).getLast? = some [] then (text.splitOn d).dropLast else text.splitOn d

section Pieces

variable {σ : Type} {d : Char} {text : List Char} {s : Stream}

theorem splitOn_of_notMem (h : d ∉ text) : text.splitOn d = [text] := by
  have hone : ∀ l ∈ [text], d ∉ l := by simpa using h
  simpa using List.splitOn_intercalate d hone (List.cons_ne_nil text [])

theorem splitOn_append_delim (pre post : List Char) :
    (pre ++ d :: post).splitOn d = pre.splitOn d ++ post.splitOn d :=
  List.splitOnP_append_cons pre post (beq_self_eq_true d)

/-- The parts of a text are free of the delimiter, and one more than there are
delimiters. -/
theorem splitOn_parts (d : Char) (text : List Char) :
    (∀ l ∈ text.splitOn d, d ∉ l) ∧ (text.splitOn d).length = text.count d + 1 := by
  induction h : text.length using Nat.strong_induction_on generalizing text with
  | _ n ih =>
    by_cases hd : d ∈ text
    · obtain ⟨pre, post, rfl, hpre⟩ := List.eq_append_cons_of_mem hd
      obtain ⟨hparts, hlength⟩ := ih post.length (by simp at h; omega) post rfl
      rw [splitOn_append_delim, splitOn_of_notMem hpre]
      refine ⟨List.forall_mem_cons.2 ⟨hpre, hparts⟩, ?_⟩
      rw [List.singleton_append, List.length_cons, hlength, List.count_append,
        List.count_eq_zero_of_not_mem hpre, List.count_cons_self]
      omega
    · rw [splitOn_of_notMem hd, List.count_eq_zero_of_not_mem hd]
      exact ⟨by simpa using hd, rfl⟩

theorem pieces_append_delim (pre post : List Char) :
    pieces d (pre ++ d :: post) = pre.splitOn d ++ pieces d post := by
  have hne := List.splitOn_ne_nil d post
  have hlast : (pre.splitOn d ++ post.splitOn d).getLast? = (post.splitOn d).getLast? := by
    rw [List.getLast?_append, List.getLast?_eq_some_getLast hne]
    rfl
  unfold pieces
  rw [splitOn_append_delim, hlast]
  split_ifs
  · exact List.dropLast_append_of_ne_nil hne
  · rfl

/-- The lines from a delimiter on. -/
theorem pieces_drop {q : ℕ} (h : text[q]? = some d) :
    pieces d (text.drop (q + 1)) = (pieces d text).drop ((text.take (q + 1)).count d) := by
  have hq : q < text.length := (List.getElem?_eq_some_iff.1 h).1
  have htext : text = text.take q ++ d :: text.drop (q + 1) := by
    rw [← (List.getElem?_eq_some_iff.1 h).2, ← List.drop_eq_getElem_cons hq, List.take_append_drop]
  have hcount : (text.take (q + 1)).count d = ((text.take q).splitOn d).length := by
    rw [(splitOn_parts d _).2, List.take_add_one, h, List.count_append]
    simp
  rw [hcount]
  conv_rhs => rw [htext, pieces_append_delim]
  rw [List.take_append_of_le_length (by simp; omega), List.take_take, Nat.min_self, List.drop_left]

/-- Every text is written as its lines. -/
theorem written_pieces (d : Char) (text : List Char) : Written d (pieces d text) text := by
  have hparts := (splitOn_parts d text).1
  have htext : separated d (text.splitOn d) = text := List.intercalate_splitOn d
  obtain ⟨ls, l, hls⟩ := (List.eq_nil_or_concat' (text.splitOn d)).resolve_left
    (List.splitOn_ne_nil d text)
  unfold pieces
  rw [hls] at htext hparts ⊢
  rw [List.getLast?_concat, List.dropLast_concat]
  split_ifs with hl
  · obtain rfl := Option.some.inj hl
    refine ⟨fun x hx => hparts x (List.mem_append_left _ hx), .inl ?_⟩
    rw [← htext, separated_append_cons, separated_singleton, List.append_nil]
  · exact ⟨hparts, .inr ⟨ls, l, rfl, fun h => hl (congrArg some h), htext.symm⟩⟩

/-- **The loop over any stream that is good.** -/
theorem forLines_pieces (body : σ → List Char → Except Stop σ) (hs : s.good) (x : σ) :
    s.forLines d body x = (pieces d s.rest).foldlM body x :=
  forLines_eq body hs (written_pieces d s.rest) x

theorem forLines_failed (body : σ → List Char → Except Stop σ) (hs : s.good = false) (x : σ) :
    s.forLines d body x = .ok x := by
  simp [Stream.forLines, Stream.forLinesWithin, Stream.getline, hs]

end Pieces

end History
end QuicNs3
