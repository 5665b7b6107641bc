/-
# Reading a line of the log back

`operator<<` leaves out the comma after `packets_sent`, so that number and the next,
`stream_bytes_sent`, run together.  A line splits into 32 fields instead of 33, and from
the second on every field stands one place before its column in `connectionStatsIndex`
(`split_print`).  No line agrees with the index.

A line still determines every other number.  Two values with the same line agree on
all numbers exactly if `packets_sent` has the same number of digits in both, which is
where the fused field is to be cut (`not_agrees_and_number_eq_iff`).
-/

import QuicNs3.History.Format
import QuicNs3.Log.Basic

namespace QuicNs3
namespace Log
namespace QuicConnectionStats

open Lib History

variable {s t : QuicConnectionStats}

/-- The line agrees with the index: it splits into one field for every statistic, and
field `i` is the statistic of the entries `3i`, `3i + 1` and `3i + 2`. -/
def Agrees (s : QuicConnectionStats) : Prop :=
  ∃ fields, split s.print ',' = .ok fields ∧ fields.length = 33 ∧
    ∀ i x, connectionStatsIndex[3 * i]? = some (x, .min) →
      connectionStatsIndex[3 * i + 1]? = some (x, .max) →
      connectionStatsIndex[3 * i + 2]? = some (x, .mean) → fields[i]? = some (s.render x)

/-- The fields a line has. -/
def fields (s : QuicConnectionStats) : List (List Char) :=
  s.render .bytesSent :: (s.render .packetsSent ++ s.render .streamBytesSent) ::
    (Statistic.all.drop 3).map s.render

theorem comma_not_mem_decimal (n : ℕ) : ',' ∉ decimal n := fun h =>
  absurd (isDigit_of_mem_decimal h) (by decide)

theorem comma_not_mem_decimalInt (z : ℤ) : ',' ∉ decimalInt z := fun h =>
  absurd (isDigit_or_of_mem_decimalInt h) (by decide)

theorem comma_not_mem_fixed2 (x : ℕ × ℕ) : ',' ∉ fixed2 x := fun h =>
  absurd (isDigit_or_of_mem_fixed2 h) (by decide)

theorem comma_ne_debugUnit (b : ℕ) : ',' ≠ (debugUnit b).2 := by
  unfold debugUnit
  split_ifs
  · exact (by decide : ',' ≠ 'k')
  · exact (by decide : ',' ≠ 'M')
  · exact (by decide : ',' ≠ 'G')

theorem comma_not_mem_toDebugValue (b : ℕ) : ',' ∉ toDebugValue b := by
  have hunit := comma_ne_debugUnit b
  unfold toDebugValue
  split
  · simp [comma_not_mem_decimal]
  · simp [comma_not_mem_fixed2, hunit]

theorem toDebugValue_ne_nil (b : ℕ) : toDebugValue b ≠ [] := by
  unfold toDebugValue
  split
  · simp
  · simp

/-- A statistic is written as a word. -/
theorem render_clean (s : QuicConnectionStats) (x : Statistic) :
    ',' ∉ s.render x ∧ s.render x ≠ [] := by
  cases x
  case estimatedBandwidth => exact ⟨comma_not_mem_toDebugValue _, toDebugValue_ne_nil _⟩
  case minRttUs | srttUs | maxTimeReorderingUs | connectionCreationTime =>
    exact ⟨comma_not_mem_decimalInt _, decimalInt_ne_nil _⟩
  all_goals exact ⟨comma_not_mem_decimal _, decimal_ne_nil _⟩

theorem print_eq_separated (s : QuicConnectionStats) : s.print = separated ',' s.fields := by
  have hfused : s.print = s.render .bytesSent ++ ',' :: (s.render .packetsSent ++
      (s.render .streamBytesSent ++ ',' ::
        separated ',' ((Statistic.all.drop 3).map s.render))) := rfl
  rw [hfused, ← List.append_assoc]
  rfl

theorem fields_clean (s : QuicConnectionStats) : ∀ l ∈ s.fields, ',' ∉ l ∧ l ≠ [] := by
  intro l hl
  simp only [fields, List.mem_cons, List.mem_map] at hl
  rcases hl with rfl | rfl | ⟨x, -, rfl⟩
  · exact s.render_clean _
  · refine ⟨fun h => ?_, fun h => (s.render_clean .packetsSent).2 (List.append_eq_nil_iff.1 h).1⟩
    rcases List.mem_append.1 h with h | h
    · exact (s.render_clean _).1 h
    · exact (s.render_clean _).1 h
  · exact s.render_clean x

/-- **What a line splits into.** -/
theorem split_print (s : QuicConnectionStats) : split s.print ',' = .ok s.fields := by
  rw [print_eq_separated]
  exact split_separated (by simp [fields]) s.fields_clean

/-- A number can be read back from its text. -/
theorem number_eq_of_render_eq {x : Statistic} (h : s.render x = t.render x) :
    s.number x = t.number x := by
  cases x
  case estimatedBandwidth => rfl
  case minRttUs | srttUs | maxTimeReorderingUs | connectionCreationTime =>
    exact congrArg some (decimalInt_injective h)
  all_goals exact congrArg (fun n : ℕ => some (n : ℤ)) (decimal_injective h)

/-- Equal lines have equal texts, up to where the fused field is cut. -/
theorem render_eq_of_print_eq (h : s.print = t.print) :
    s.render .packetsSent ++ s.render .streamBytesSent =
        t.render .packetsSent ++ t.render .streamBytesSent ∧
      ∀ x, x ≠ .packetsSent → x ≠ .streamBytesSent → s.render x = t.render x := by
  have hfields : s.fields = t.fields := by
    have hs := s.split_print
    rw [h, t.split_print] at hs
    exact (Except.ok.inj hs).symm
  obtain ⟨hfirst, hrest⟩ := List.cons.inj hfields
  obtain ⟨hfused, hrest⟩ := List.cons.inj hrest
  have hall : ∀ x ∈ Statistic.all.drop 3, s.render x = t.render x := List.map_inj_left.1 hrest
  refine ⟨hfused, fun x h₁ h₂ => ?_⟩
  by_cases hx : x = .bytesSent
  · rw [hx]
    exact hfirst
  · refine hall x ?_
    revert h₁ h₂ hx
    cases x <;> decide

theorem not_agrees (s : QuicConnectionStats) : ¬ s.Agrees := by
  rintro ⟨words, hsplit, hlen, -⟩
  rw [split_print] at hsplit
  rw [← Except.ok.inj hsplit] at hlen
  simp [fields, Statistic.all] at hlen

/-- **No line agrees with the index,** and what two values with the same line agree on:
every number exactly if `packets_sent` has as many digits in one as in the other. -/
theorem not_agrees_and_number_eq_iff (s : QuicConnectionStats) :
    ¬ s.Agrees ∧
      ∀ t : QuicConnectionStats, s.print = t.print →
        ((∀ x, s.number x = t.number x) ↔
          (decimal s.packetsSent).length = (decimal t.packetsSent).length) := by
  refine ⟨s.not_agrees, fun t h => ?_⟩
  obtain ⟨hfused, hrest⟩ := render_eq_of_print_eq h
  constructor
  · intro hnumber
    have hpackets : (s.packetsSent : ℤ) = t.packetsSent := Option.some.inj (hnumber .packetsSent)
    rw [Int.ofNat.inj hpackets]
  · intro hlen x
    obtain ⟨hpackets, hbytes⟩ := List.append_inj hfused hlen
    by_cases h₁ : x = .packetsSent
    · exact number_eq_of_render_eq (h₁ ▸ hpackets)
    · by_cases h₂ : x = .streamBytesSent
      · exact number_eq_of_render_eq (h₂ ▸ hbytes)
      · exact number_eq_of_render_eq (hrest x h₁ h₂)

/-- Where the numbers of digits differ, so do the numbers. -/
theorem exists_number_ne_of_fused :
    ¬ ∀ x, { new with packetsSent := 1, streamBytesSent := 23 }.number x =
      { new with packetsSent := 12, streamBytesSent := 3 }.number x := by
  intro h
  have hfused := not_agrees_and_number_eq_iff { new with packetsSent := 1, streamBytesSent := 23 }
  have hlen := (hfused.2 { new with packetsSent := 12, streamBytesSent := 3 } rfl).1 h
  exact absurd hlen (by decide)

/-- One packet with 23 stream bytes is written like 12 packets with 3 stream bytes, in a
line of 32 fields. -/
theorem print_fused_eq :
    { new with packetsSent := 1, streamBytesSent := 23 }.print =
        { new with packetsSent := 12, streamBytesSent := 3 }.print ∧
      ¬ { new with packetsSent := 1, streamBytesSent := 23 }.Agrees :=
  ⟨rfl, not_agrees _⟩

end QuicConnectionStats
end Log
end QuicNs3
