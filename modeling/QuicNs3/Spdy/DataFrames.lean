/-
# Stream data in HTTP/2 DATA frames

Model of `QuicSpdySession::WritevStreamData` (`net/quic/core/quic_spdy_session.cc`), which
cuts the vectors of a stream into DATA frames for the headers stream.  The outer loop goes
over the vectors, the inner one over the fragments of one vector; both stop when the headers
stream has data that waits, or when the total length has been written.

Whether data waits in the headers stream is an input, `backed`: it may depend on the frames
written so far.  The inner loop has fuel for one fragment more than the vector has bytes.

The data are always kept (`Framed`).  The FIN is a different matter: the loops end when the
total length has been written, but the FIN goes with the last fragment of the last vector.
The two are the same frame unless the last vector is empty
(`writevStreamData_preserves_iff`).
-/

import QuicNs3.Streams.Write

namespace QuicNs3
namespace Spdy

open Streams (ConsumedData)

def kSpdyInitialFrameSizeLimit : ℕ := 1 <<< 14

def kDataFrameMinimumSize : ℕ := 9

/-- `max_len`. -/
def maxLen : ℕ := kSpdyInitialFrameSizeLimit - kDataFrameMinimumSize

theorem maxLen_pos : 0 < maxLen := by decide

/-- What `WriteDataFrame` writes. -/
structure DataFrame where
  payload : List UInt8
  fin : Bool
  deriving Repr, DecidableEq

/-- What `WritevStreamData` has done so far, and the length that is left. -/
structure Progress where
  frames : List DataFrame
  totalLength : ℕ
  result : ConsumedData
  deriving Repr, DecidableEq

/-- `WriteDataFrame`, and what is counted after it. -/
def Progress.writeDataFrame (p : Progress) (data : List UInt8) (len : ℕ) (frameFin : Bool) :
    Progress where
  frames := p.frames ++ [⟨data, frameFin⟩]
  totalLength := p.totalLength - len
  result := ⟨p.result.bytesConsumed + len, if frameFin then true else p.result.finConsumed⟩

section Loops

variable (backed : List DataFrame → Bool) (fin : Bool)

/-- The inner loop, for one vector, and whether it returns from the function. -/
def writeFragments (lastIov : Bool) (srcIov : List UInt8) :
    ℕ → ℕ → Progress → Option (Bool × Progress)
  | 0, _, _ => none
  | fuel + 1, srcIovOffset, p =>
    if backed p.frames then some (true, p)
    else
      let len := min (min (srcIov.length - srcIovOffset) maxLen) p.totalLength
      let data := (srcIov.drop srcIovOffset).take len
      let srcIovOffset := srcIovOffset + len
      let lastFragmentWithinIov := decide (srcIov.length ≤ srcIovOffset)
      let frameFin := if lastIov && lastFragmentWithinIov then fin else false
      let p := p.writeDataFrame data len frameFin
      if p.totalLength ≤ 0 then some (true, p)
      else if srcIovOffset < srcIov.length then
        writeFragments lastIov srcIov fuel srcIovOffset p
      else some (false, p)

/-- The outer loop. -/
def writeVectors : List (List UInt8) → Progress → Option Progress
  | [], p => some p
  | srcIov :: iov, p =>
    (writeFragments backed fin iov.isEmpty srcIov (srcIov.length + 1) 0 p).bind fun r =>
      if r.1 then some r.2 else writeVectors iov r.2

/-- `WritevStreamData`, and the frames it writes. -/
def writevStreamData (iov : List (List UInt8)) (totalLength : ℕ) :
    Option (ConsumedData × List DataFrame) :=
  if totalLength = 0 ∧ fin = true then some (⟨0, true⟩, [⟨[], true⟩])
  else
    (writeVectors backed fin iov ⟨[], totalLength, ⟨0, false⟩⟩).map fun p =>
      (p.result, p.frames)

end Loops

/-! ## The data -/

variable {fin frameFin : Bool} {all data rest : List UInt8} {total len : ℕ} {p q : Progress}

/-- **The frames hold the data:** the first bytes of all vectors, in frames of permitted
size, with no FIN but in the last of them. -/
structure Framed (all : List UInt8) (total : ℕ) (p : Progress) : Prop where
  payloads : p.frames.flatMap DataFrame.payload = all.take p.result.bytesConsumed
  counted : p.result.bytesConsumed + p.totalLength = total
  small : ∀ f ∈ p.frames, f.payload.length ≤ maxLen
  finLast : ∀ f ∈ p.frames.dropLast, f.fin = false
  finConsumed : p.result.finConsumed = true ↔ ∃ f ∈ p.frames, f.fin = true

/-- The bytes `todo` are still to be read; with a FIN all of them are to be written. -/
structure Before (all todo : List UInt8) (total : ℕ) (fin : Bool) (p : Progress) : Prop where
  framed : Framed all total p
  drop_eq : all.drop p.result.bytesConsumed = todo
  le : p.totalLength ≤ todo.length
  fin : fin = true → p.totalLength = todo.length

/-- No FIN has been written. -/
def Open (p : Progress) : Prop := ∀ f ∈ p.frames, f.fin = false

theorem Open.finConsumed (h : Open p) (hp : Framed all total p) : p.result.finConsumed = false := by
  rw [← Bool.not_eq_true, hp.finConsumed]
  rintro ⟨f, hf, hfin⟩
  exact Bool.false_ne_true ((h f hf).symm.trans hfin)

/-- **One frame.** -/
theorem Before.writeDataFrame (h : Before all (data ++ rest) total fin p) (hopen : Open p)
    (hlen : data.length = len) (hmax : len ≤ maxLen) (htotal : len ≤ p.totalLength) :
    Before all rest total fin (p.writeDataFrame data len frameFin) := by
  have hnotFin := hopen.finConsumed h.framed
  have hle := h.le
  rw [List.length_append, hlen] at hle
  refine ⟨⟨?_, ?_, ?_, ?_, ?_⟩, ?_, ?_, ?_⟩
  · show List.flatMap DataFrame.payload (p.frames ++ [⟨data, frameFin⟩]) =
      all.take (p.result.bytesConsumed + len)
    rw [List.flatMap_append, h.framed.payloads, List.take_add, h.drop_eq, ← hlen, List.take_left]
    simp
  · show p.result.bytesConsumed + len + (p.totalLength - len) = total
    have := h.framed.counted
    omega
  · intro f hf
    rcases List.mem_append.1 hf with hf | hf
    · exact h.framed.small f hf
    · obtain rfl := List.mem_singleton.1 hf
      exact hlen.trans_le hmax
  · intro f hf
    rw [Progress.writeDataFrame, List.dropLast_concat] at hf
    exact hopen f hf
  · show (if frameFin then true else p.result.finConsumed) = true ↔
      ∃ f ∈ p.frames ++ [⟨data, frameFin⟩], f.fin = true
    cases frameFin with
    | true => simp
    | false => simpa [hnotFin, Open] using hopen
  · show all.drop (p.result.bytesConsumed + len) = rest
    rw [← List.drop_drop, h.drop_eq, ← hlen, List.drop_left]
  · show p.totalLength - len ≤ rest.length
    omega
  · intro hfin
    have hall := h.fin hfin
    rw [List.length_append, hlen] at hall
    show p.totalLength - len = rest.length
    omega

/-- A frame without FIN. -/
theorem Open.writeDataFrame (h : Open p) : Open (p.writeDataFrame data len false) := by
  intro f hf
  rcases List.mem_append.1 hf with hf | hf
  · exact h f hf
  · obtain rfl := List.mem_singleton.1 hf
    rfl

/-! ## The loops -/

variable (backed : List DataFrame → Bool)

/-- The function returns from the loop over a vector, with the vectors `iov` after it: the
headers stream is backed up, or all is written, with the FIN if there are no more vectors. -/
def Returns (fin : Bool) (iov : List (List UInt8))
    (p : Progress) : Prop :=
  backed p.frames = true ∨
    p.totalLength = 0 ∧ p.result.finConsumed = (fin && iov.isEmpty) ∧
      (fin = true → iov.flatten = [])

/-- **The loop over a vector** ends, because the function returns or because the vector has
been written. -/
theorem writeFragments_spec {srcIov : List UInt8} {iov : List (List UInt8)} {fuel offset : ℕ}
    (h : Before all (srcIov.drop offset ++ iov.flatten) total fin p) (hopen : Open p)
    (hoffset : offset ≤ srcIov.length) (hfuel : srcIov.length < offset + fuel) :
    ∃ r, writeFragments backed fin iov.isEmpty srcIov fuel offset p = some r ∧
      Framed all total r.2 ∧
      (r.1 = true → Returns backed fin iov r.2) ∧
      (r.1 = false → Before all iov.flatten total fin r.2 ∧ Open r.2 ∧ 0 < r.2.totalLength) := by
  -- the fuel bounds the bytes of the vector that are left
  induction fuel generalizing offset p with
  | zero => exact absurd hfuel (by omega)
  | succ fuel ih =>
    rw [writeFragments]
    by_cases hbacked : backed p.frames = true
    · rw [if_pos hbacked]
      exact ⟨_, rfl, h.framed, fun _ => .inl hbacked, fun hf => absurd hf (by simp)⟩
    rw [if_neg hbacked]
    dsimp only
    set len := min (min (srcIov.length - offset) maxLen) p.totalLength with hlen
    set frameFin := if iov.isEmpty && decide (srcIov.length ≤ offset + len) then fin else false
      with hframeFin
    have hdata : ((srcIov.drop offset).take len).length = len := by
      rw [List.length_take, List.length_drop]
      omega
    have hsplit : srcIov.drop offset =
        (srcIov.drop offset).take len ++ srcIov.drop (offset + len) := by
      rw [← List.drop_drop, List.take_append_drop]
    rw [hsplit, List.append_assoc] at h
    have hq : Before all (srcIov.drop (offset + len) ++ iov.flatten) total fin
        (p.writeDataFrame ((srcIov.drop offset).take len) len frameFin) :=
      h.writeDataFrame hopen hdata (by omega) (by omega)
    by_cases hdone : (p.writeDataFrame ((srcIov.drop offset).take len) len frameFin).totalLength ≤ 0
    · refine ⟨_, if_pos hdone, hq.framed, fun _ => .inr ⟨Nat.le_zero.1 hdone, ?_, ?_⟩,
        fun hf => absurd hf (by simp)⟩
      · show (if frameFin then true else p.result.finConsumed) = _
        rw [hopen.finConsumed h.framed, hframeFin]
        cases fin with
        | false => simp
        | true =>
          have hnone := hq.fin rfl
          rw [List.length_append, List.length_drop, Nat.le_zero.1 hdone] at hnone
          have hlast : srcIov.length ≤ offset + len := by omega
          cases iov <;> simp [hlast]
      · intro hfin
        have hnone := hq.fin hfin
        rw [List.length_append, Nat.le_zero.1 hdone] at hnone
        exact List.eq_nil_of_length_eq_zero (by omega)
    -- bytes are left, so this was not the last fragment of the last vector with a FIN
    have hnotFin : frameFin = false := by
      rw [hframeFin]
      split_ifs with hlast
      · rw [Bool.and_eq_true, List.isEmpty_iff, decide_eq_true_iff] at hlast
        rw [← Bool.not_eq_true]
        intro hfin
        have hall := hq.fin hfin
        rw [hlast.1, List.drop_eq_nil_of_le hlast.2] at hall
        exact hdone hall.le
      · rfl
    rw [hnotFin] at hq hdone ⊢
    have hopen' : Open (p.writeDataFrame ((srcIov.drop offset).take len) len false) :=
      hopen.writeDataFrame
    rw [if_neg hdone]
    have hleft : ¬p.totalLength - len ≤ 0 := hdone
    by_cases hmore : offset + len < srcIov.length
    · rw [if_pos hmore]
      have := maxLen_pos
      exact ih hq hopen' hmore.le (by omega)
    · rw [if_neg hmore]
      rw [List.drop_eq_nil_of_le (Nat.not_lt.1 hmore)] at hq
      exact ⟨_, rfl, hq.framed, fun hf => absurd hf (by simp), fun _ =>
        ⟨hq, hopen', Nat.not_le.1 hdone⟩⟩

/-- The last vector is not empty. -/
def LastNonempty (iov : List (List UInt8)) : Prop := ∃ v ∈ iov.getLast?, v ≠ []

instance : DecidablePred LastNonempty := fun iov =>
  decidable_of_iff (iov.getLast?.any fun v => !v.isEmpty) (by
    simp [LastNonempty, Option.any_eq_true])

theorem lastNonempty_cons {v : List UInt8} {iov : List (List UInt8)} (h : iov ≠ []) :
    LastNonempty (v :: iov) ↔ LastNonempty iov := by
  obtain ⟨w, iov, rfl⟩ := List.exists_cons_of_ne_nil h
  rw [LastNonempty, LastNonempty, List.getLast?_cons_cons]

theorem not_lastNonempty_of_flatten {iov : List (List UInt8)} (h : iov.flatten = []) :
    ¬LastNonempty iov := by
  rintro ⟨v, hv, hne⟩
  exact hne (List.flatten_eq_nil_iff.1 h v (List.mem_of_getLast? hv))

/-- **The loop over the vectors.** -/
theorem writeVectors_spec {iov : List (List UInt8)} (h : Before all iov.flatten total fin p)
    (hopen : Open p) (hpos : fin = true → 0 < p.totalLength) :
    ∃ q, writeVectors backed fin iov p = some q ∧ Framed all total q ∧
      (backed q.frames = true ∨
        q.totalLength = 0 ∧ (q.result.finConsumed = true ↔ fin = true ∧ LastNonempty iov)) := by
  induction iov generalizing p with
  | nil =>
    have hnone : p.totalLength = 0 := Nat.le_zero.1 h.le
    refine ⟨p, rfl, h.framed, .inr ⟨hnone, ?_⟩⟩
    rw [hopen.finConsumed h.framed]
    exact iff_of_false Bool.false_ne_true fun hf => absurd (hpos hf.1) (by omega)
  | cons srcIov iov ih =>
    obtain ⟨r, hr, hframed, hreturns, hnext⟩ :=
      writeFragments_spec backed
        (show Before all (srcIov.drop 0 ++ iov.flatten) total fin p from h) hopen (Nat.zero_le _)
        (show srcIov.length < 0 + (srcIov.length + 1) by omega)
    rw [writeVectors, hr, Option.bind_some]
    cases hdone : r.1 with
    | true =>
      refine ⟨r.2, if_pos rfl, hframed, (hreturns hdone).imp_right ?_⟩
      rintro ⟨hnone, hfin, hempty⟩
      refine ⟨hnone, ?_⟩
      rw [hfin, Bool.and_eq_true, List.isEmpty_iff]
      refine and_congr_right fun hf => ?_
      by_cases hlast : iov = []
      · refine iff_of_true hlast ⟨srcIov, by rw [hlast]; rfl, ?_⟩
        -- with a FIN something was left to write, and it was in this vector
        rintro rfl
        have hall := h.fin hf
        rw [List.flatten_cons, hempty hf] at hall
        exact absurd (hpos hf) (by simp [hall])
      · rw [lastNonempty_cons hlast]
        exact iff_of_false hlast (not_lastNonempty_of_flatten (hempty hf))
    | false =>
      obtain ⟨hbefore, hopen', hleft⟩ := hnext hdone
      have hmore : iov ≠ [] := by
        rintro rfl
        exact absurd hbefore.le (Nat.not_le.2 hleft)
      obtain ⟨q, hq, hres⟩ := ih hbefore hopen' fun _ => hleft
      exact ⟨q, by simpa using hq, by rwa [lastNonempty_cons hmore]⟩

/-! ## Framing preserves the stream -/

/-- **Framing preserves the stream:** the payloads are the first bytes of the vectors, as
many as are reported, in frames of permitted size; at most the last frame has the FIN; and
if the headers stream never backs up, everything is consumed. -/
structure Preserves (iov : List (List UInt8)) (total : ℕ)
    (fin : Bool) (r : ConsumedData) (frames : List DataFrame) : Prop where
  payloads : frames.flatMap DataFrame.payload = iov.flatten.take r.bytesConsumed
  le : r.bytesConsumed ≤ total
  small : ∀ f ∈ frames, f.payload.length ≤ maxLen
  finLast : ∀ f ∈ frames.dropLast, f.fin = false
  finConsumed : r.finConsumed = true ↔ ∃ f ∈ frames, f.fin = true
  complete : (∀ pre, pre <+: frames → backed pre = false) →
    r.bytesConsumed = total ∧ r.finConsumed = fin

/-- What `WritevStreamData` does when it does not write an empty frame with FIN. -/
theorem writevStreamData_spec {iov : List (List UInt8)} (hle : total ≤ iov.flatten.length)
    (hfin : fin = true → total = iov.flatten.length) (hpos : fin = true → 0 < total) :
    ∃ q, writevStreamData backed fin iov total = some (q.result, q.frames) ∧
      Framed iov.flatten total q ∧
      (backed q.frames = true ∨
        q.totalLength = 0 ∧ (q.result.finConsumed = true ↔ fin = true ∧ LastNonempty iov)) := by
  have hstart : Before iov.flatten iov.flatten total fin ⟨[], total, ⟨0, false⟩⟩ := by
    refine ⟨⟨?_, ?_, ?_, ?_, ?_⟩, ?_, hle, hfin⟩ <;> simp
  obtain ⟨q, hq, hres⟩ :=
    writeVectors_spec backed hstart (fun f hf => absurd hf List.not_mem_nil) hpos
  refine ⟨q, ?_, hres⟩
  rw [writevStreamData, if_neg fun h => absurd (hpos h.2) (by omega), hq]
  rfl

theorem Framed.preserves {iov : List (List UInt8)} (h : Framed iov.flatten total q)
    (hcomplete : backed q.frames = true ∨ q.totalLength = 0 ∧ q.result.finConsumed = fin) :
    Preserves backed iov total fin q.result q.frames := by
  have hcounted := h.counted
  refine ⟨h.payloads, by omega, h.small, h.finLast, h.finConsumed, fun hnever => ?_⟩
  rcases hcomplete with hbacked | ⟨hnone, hfin⟩
  · exact absurd ((hnever _ (List.prefix_refl _)).symm.trans hbacked) Bool.false_ne_true
  · exact ⟨by omega, hfin⟩

/-- **DATA framing preserves the stream**, whatever the headers stream does, exactly if no FIN
comes with data and an empty last vector. -/
theorem writevStreamData_preserves_iff (iov : List (List UInt8)) (total : ℕ) (fin : Bool)
    (hle : total ≤ iov.flatten.length) (hfin : fin = true → total = iov.flatten.length) :
    (∀ backed, ∃ r frames, writevStreamData backed fin iov total = some (r, frames) ∧
      Preserves backed iov total fin r frames) ↔
    (fin = true → total = 0 ∨ LastNonempty iov) := by
  constructor
  · intro h hf
    refine Classical.or_iff_not_imp_left.2 fun hne => ?_
    obtain ⟨r, frames, hr, hpreserves⟩ := h fun _ => false
    obtain ⟨q, hq, -, hend⟩ := writevStreamData_spec (fun _ => false) hle hfin
      fun _ => Nat.pos_of_ne_zero hne
    obtain ⟨rfl, rfl⟩ := Prod.mk.inj (Option.some.inj (hr.symm.trans hq))
    rcases hend with hbacked | ⟨-, hlast⟩
    · exact absurd hbacked Bool.false_ne_true
    · exact (hlast.1 (((hpreserves.complete fun _ _ => rfl).2).trans hf)).2
  · intro hcond backed
    by_cases hempty : total = 0 ∧ fin = true
    · obtain ⟨rfl, rfl⟩ := hempty
      refine ⟨⟨0, true⟩, [⟨[], true⟩], if_pos ⟨rfl, rfl⟩, ?_⟩
      constructor <;> simp
    · have hpos : fin = true → 0 < total := fun hf =>
        Nat.pos_of_ne_zero fun h0 => hempty ⟨h0, hf⟩
      obtain ⟨q, hq, hframed, hend⟩ := writevStreamData_spec backed hle hfin hpos
      refine ⟨_, _, hq, hframed.preserves backed (hend.imp_right ?_)⟩
      rintro ⟨hnone, hlast⟩
      refine ⟨hnone, Bool.eq_iff_iff.2 (hlast.trans (and_iff_left_of_imp fun hf => ?_))⟩
      exact (hcond hf).resolve_left (hpos hf).ne'

/-- Vectors of two, no and one byte. -/
theorem writevStreamData_preserves_three :
    (∀ backed, ∃ r frames,
      writevStreamData backed true [[1, 2], [], [3]] 3 = some (r, frames) ∧
        Preserves backed [[1, 2], [], [3]] 3 true r frames) ↔
      (true = true → 3 = 0 ∨ LastNonempty [[1, 2], [], [3]]) :=
  writevStreamData_preserves_iff [[1, 2], [], [3]] 3 true (by decide) (by decide)

example : (writevStreamData (fun _ => false) true [[1, 2], [], [3]] 3) =
    some (⟨3, true⟩, [⟨[1, 2], false⟩, ⟨[], false⟩, ⟨[3], true⟩]) := by decide

/-- **The FIN is lost** when an empty vector follows the data: all five bytes are written
in one frame without FIN, and the function returns. -/
theorem not_writevStreamData_preserves_trailing :
    writevStreamData (fun _ => false) true [[1, 2, 3, 4, 5], []] 5 =
      some (⟨5, false⟩, [⟨[1, 2, 3, 4, 5], false⟩]) ∧
    ¬∃ r frames, writevStreamData (fun _ => false) true [[1, 2, 3, 4, 5], []] 5 =
      some (r, frames) ∧ Preserves (fun _ => false) [[1, 2, 3, 4, 5], []] 5 true r frames := by
  have hrun : writevStreamData (fun _ => false) true [[1, 2, 3, 4, 5], []] 5 =
      some (⟨5, false⟩, [⟨[1, 2, 3, 4, 5], false⟩]) := by decide
  refine ⟨hrun, ?_⟩
  rintro ⟨r, frames, hr, hpreserves⟩
  obtain ⟨rfl, rfl⟩ := Prod.mk.inj (Option.some.inj (hr.symm.trans hrun))
  exact absurd (hpreserves.complete fun _ _ => rfl).2 Bool.false_ne_true

end Spdy
end QuicNs3
