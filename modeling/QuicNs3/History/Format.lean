/-
# The history files

The two files of `ConnectionStatsQuery`, as they are meant to be written:

| file | line |
| --- | --- |
| statistics | `id,min_1,…,min_k;max_1,…,max_k;mean_1,…,mean_k` |
| addresses | `ip,cluster` |

A word (`Field`) is not empty and has none of the characters that end words in its
file.  What `Initialize` reads from a line is what was written: `split` undoes
writing words with a delimiter between them (`split_separated`), and so do
`parseStats` and `parseIp` for a line.
-/

import QuicNs3.History.Scan

namespace QuicNs3
namespace History

/-- A word of a file: not empty, and without the characters that end words there. -/
structure Field (delims : List Char) where
  text : List Char
  ne_nil : text ≠ []
  clean : ∀ d ∈ delims, d ∉ text

/-- A word of the statistics file. -/
abbrev StatsField := Field [',', ';', '\n']

/-- A word of the address file. -/
abbrev IpField := Field [',', '\n']

/-- The three values of one statistic. -/
structure Column where
  min : StatsField
  max : StatsField
  mean : StatsField

/-- A line of the statistics file. -/
structure StatsLine where
  id : StatsField
  columns : List Column
  columns_ne_nil : columns ≠ []

/-- A line of the address file. -/
structure IpLine where
  ip : IpField
  cluster : IpField

/-- The words of the three parts of a statistics line. -/
def StatsLine.parts (line : StatsLine) : List (List (List Char)) :=
  [line.id.text :: line.columns.map (·.min.text), line.columns.map (·.max.text),
    line.columns.map (·.mean.text)]

def StatsLine.text (line : StatsLine) : List Char :=
  separated ';' (line.parts.map (separated ','))

/-- The vector a statistics line stands for. -/
def StatsLine.rows {D : Type} (atof : List Char → D) (line : StatsLine) : List D :=
  line.columns.flatMap fun c => [atof c.min.text, atof c.max.text, atof c.mean.text]

def IpLine.text (line : IpLine) : List Char := separated ',' [line.ip.text, line.cluster.text]

section Split

variable {d : Char} {l : List Char} {ls : List (List Char)}

theorem foldlM_push (x ls : List (List Char)) :
    ls.foldlM (fun sv temp => (.ok (sv ++ [temp]) : Except Stop _)) x = .ok (x ++ ls) := by
  induction ls generalizing x with
  | nil => simp; rfl
  | cons l ls ih =>
    rw [List.foldlM_cons]
    exact (ih (x ++ [l])).trans (by simp)

/-- **`split` undoes writing the words with a delimiter between them.** -/
theorem split_separated (hne : ls ≠ []) (hls : ∀ l ∈ ls, d ∉ l ∧ l ≠ []) :
    split (separated d ls) d = .ok ls := by
  obtain ⟨ls', l, rfl⟩ := (List.eq_nil_or_concat' ls).resolve_left hne
  have hw : Written d (ls' ++ [l]) (Stream.open (separated d (ls' ++ [l]))).rest :=
    ⟨fun x hx => (hls x hx).1, .inr ⟨ls', l, rfl, (hls l (by simp)).2, rfl⟩⟩
  rw [split, forLines_eq _ rfl hw, foldlM_push]
  rfl

theorem not_mem_separated {e : Char} (hed : e ≠ d) (hls : ∀ l ∈ ls, e ∉ l) :
    e ∉ separated d ls := by
  induction ls with
  | nil => simp [separated]
  | cons l ls ih =>
    have hl := hls l (List.mem_cons_self ..)
    have hls' := ih fun x hx => hls x (.tail _ hx)
    cases ls with
    | nil => simpa using hl
    | cons l' ls => simp_all

theorem separated_ne_nil (hne : ls ≠ []) (hls : ∀ l ∈ ls, l ≠ []) : separated d ls ≠ [] := by
  cases ls with
  | nil => exact absurd rfl hne
  | cons l ls =>
    have hl := hls l (List.mem_cons_self ..)
    cases ls with
    | nil => simpa using hl
    | cons l' ls => simp

end Split

section Lines

variable {D : Type} (atof : List Char → D) (line : StatsLine)

theorem StatsLine.parts_clean {e : Char} (he : e ∈ [',', ';', '\n']) :
    ∀ part ∈ line.parts, part ≠ [] ∧ ∀ l ∈ part, e ∉ l ∧ l ≠ [] := by
  have hmin : ∀ l ∈ line.columns.map (·.min.text), e ∉ l ∧ l ≠ [] := by
    rw [List.forall_mem_map]; exact fun c _ => ⟨c.min.clean e he, c.min.ne_nil⟩
  have hmax : ∀ l ∈ line.columns.map (·.max.text), e ∉ l ∧ l ≠ [] := by
    rw [List.forall_mem_map]; exact fun c _ => ⟨c.max.clean e he, c.max.ne_nil⟩
  have hmean : ∀ l ∈ line.columns.map (·.mean.text), e ∉ l ∧ l ≠ [] := by
    rw [List.forall_mem_map]; exact fun c _ => ⟨c.mean.clean e he, c.mean.ne_nil⟩
  have hne := line.columns_ne_nil
  simp only [parts, List.mem_cons, List.not_mem_nil, or_false, forall_eq_or_imp, forall_eq]
  refine ⟨⟨by simp, ⟨line.id.clean e he, line.id.ne_nil⟩, hmin⟩, ⟨by simpa using hne, hmax⟩,
    by simpa using hne, hmean⟩

/-- The first rounds of the loop over the words. -/
theorem foldlM_pushRow {m : ℕ} (hm : m ≤ line.columns.length) :
    (List.range m).foldlM (pushRow atof (line.columns.map (·.min.text))
      (line.columns.map (·.max.text)) (line.columns.map (·.mean.text))) [] =
      .ok ((line.columns.take m).flatMap fun c =>
        [atof c.min.text, atof c.max.text, atof c.mean.text]) := by
  induction m with
  | zero => rfl
  | succ m ih =>
    rw [List.range_succ, List.foldlM_append, ih (by omega), List.take_succ_eq_append_getElem hm,
      List.flatMap_append]
    have haccess : ∀ f : Column → List Char,
        access (line.columns.map f) m = .ok (f line.columns[m]) := fun f => by
      simp [access, List.getElem?_eq_getElem (show m < line.columns.length from hm)]
    simp only [bind, Except.bind, List.foldlM_cons, List.foldlM_nil, pushRow, haccess]
    simp [pure, Except.pure]

/-- **A line of the statistics file is read as what it stands for,** if its words
can be counted. -/
theorem parseStats_text : parseStats atof line.text =
    if line.columns.length < 2 ^ 32 then .ok (line.id.text, line.rows atof)
    else .error .outOfFuel := by
  have hsemi : split line.text ';' = .ok (line.parts.map (separated ',')) := by
    refine split_separated (by simp [StatsLine.parts]) (List.forall_mem_map.2 fun part hpart => ?_)
    have hclean := line.parts_clean (e := ';') (by simp) part hpart
    exact ⟨not_mem_separated (by decide) fun l hl => (hclean.2 l hl).1,
      separated_ne_nil hclean.1 fun l hl => (hclean.2 l hl).2⟩
  have hcomma : ∀ part ∈ line.parts, split (separated ',' part) ',' = .ok part := fun part hpart =>
    have hclean := line.parts_clean (e := ',') (by simp) part hpart
    split_separated hclean.1 hclean.2
  simp only [StatsLine.parts, List.mem_cons, List.not_mem_nil, or_false, forall_eq_or_imp,
    forall_eq] at hcomma
  obtain ⟨h₁, h₂, h₃⟩ := hcomma
  have hrows := foldlM_pushRow atof line (Nat.min_le_left line.columns.length (2 ^ 32))
  simp only [parseStats, hsemi, StatsLine.parts, List.map_cons, List.map_nil, access,
    List.getElem?_cons_zero, List.getElem?_cons_succ, bind, Except.bind, h₁, h₂, h₃, pushRows,
    List.length_map, List.drop_succ_cons, List.drop_zero, hrows]
  split_ifs with hlt
  · rw [Nat.min_eq_left (Nat.le_of_lt hlt), List.take_length]
    rfl
  · rfl

theorem parseIp_text (line : IpLine) :
    parseIp line.text = .ok (line.ip.text, line.cluster.text) := by
  have hsplit : split line.text ',' = .ok [line.ip.text, line.cluster.text] := by
    refine split_separated (by simp) ?_
    simp only [List.mem_cons, List.not_mem_nil, or_false, forall_eq_or_imp, forall_eq]
    exact ⟨⟨line.ip.clean _ (by simp), line.ip.ne_nil⟩, line.cluster.clean _ (by simp),
      line.cluster.ne_nil⟩
  simp only [parseIp, hsplit, bind, Except.bind, access, List.getElem?_cons_zero,
    List.getElem?_cons_succ]
  rfl

/-- Where the values of statistic `i` are. -/
theorem rows_getElem? {i : ℕ} {c : Column} (hc : line.columns[i]? = some c) :
    (line.rows atof)[3 * i]? = some (atof c.min.text) ∧
      (line.rows atof)[3 * i + 1]? = some (atof c.max.text) ∧
      (line.rows atof)[3 * i + 2]? = some (atof c.mean.text) := by
  unfold StatsLine.rows
  generalize line.columns = columns at hc
  induction columns generalizing i with
  | nil => simp at hc
  | cons c' columns ih =>
    cases i with
    | zero =>
      obtain rfl : c' = c := by simpa using hc
      simp
    | succ i => simpa [Nat.mul_succ] using ih (by simpa using hc)

theorem full_statsText (lines : List StatsLine) : Full (lines.map StatsLine.text) := by
  refine List.forall_mem_map.2 fun line _ => ?_
  have hclean := line.parts_clean (e := '\n') (by simp)
  refine ⟨not_mem_separated (by decide) (List.forall_mem_map.2 fun part hpart => ?_), ?_⟩
  · exact not_mem_separated (by decide) fun l hl => ((hclean part hpart).2 l hl).1
  · refine separated_ne_nil (by simp [StatsLine.parts]) (List.forall_mem_map.2 fun part hpart => ?_)
    exact separated_ne_nil (hclean part hpart).1 fun l hl => ((hclean part hpart).2 l hl).2

theorem full_ipText (lines : List IpLine) : Full (lines.map IpLine.text) := by
  refine List.forall_mem_map.2 fun line _ => ⟨?_, by simp [IpLine.text]⟩
  simpa [IpLine.text] using ⟨line.ip.clean '\n' (by simp), line.cluster.clean '\n' (by simp)⟩

theorem two_le_length_ipText (lines : List IpLine) : ∀ l ∈ lines.map IpLine.text, 2 ≤ l.length := by
  refine List.forall_mem_map.2 fun line _ => ?_
  have hip := List.length_pos_iff.2 line.ip.ne_nil
  simp [IpLine.text]; omega

end Lines

end History
end QuicNs3
