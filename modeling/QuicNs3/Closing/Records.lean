/-
# One record for each closed stream

A call of `CloseStreamInner` appends its record to the log after all the calls it makes, and
those may close other streams and append theirs, so the records are not in the order in which
the streams were taken out of the map.  But each call that returns has added to the log what
it has taken out of the map (`Kept`): the step lemma is `body_correct`, one case for each
function, and the induction over nested calls is `Lib.exec_correct`, with a measure that says
why the nesting ends.  A stream, the connection and the first write error are gone for good
when they have been dealt with, and between two such events the calls go down a fixed order.

`always_recorded` puts this together for all operations, in any order and with any outcomes of
the writes.
-/

import QuicNs3.Closing.Basic
import Mathlib.Data.List.Perm.Basic

namespace QuicNs3
namespace Closing
namespace Session

open Lib

variable {s t u : Session} {call : Call → Session → Option Session} {c c' : Call}
  {x : Option Session} {id : ℕ}

/-! ## What a call leaves -/

/-- From `s` to `t` the streams `l` were taken out of the map, and each has its record. -/
structure Closed (l : List ℕ) (s t : Session) : Prop where
  removed : t.removed = s.removed ++ l
  log : t.log.Perm (s.log ++ l)
  map : s.dynamicStreamMap.Perm (l ++ t.dynamicStreamMap)
  connected : t.connected = true → s.connected = true
  writeErrorOccurred : s.writeErrorOccurred = true → t.writeErrorOccurred = true

/-- **What every call keeps.** -/
def Kept (s t : Session) : Prop := ∃ l, Closed l s t

theorem Kept.of_eq (hremoved : t.removed = s.removed) (hlog : t.log = s.log)
    (hmap : t.dynamicStreamMap = s.dynamicStreamMap)
    (hconnected : t.connected = true → s.connected = true)
    (herror : s.writeErrorOccurred = true → t.writeErrorOccurred = true) : Kept s t :=
  ⟨[], ⟨by simpa using hremoved, by simp [hlog], by simp [hmap], hconnected, herror⟩⟩

theorem Kept.refl (s : Session) : Kept s s := .of_eq rfl rfl rfl id id

theorem Kept.trans (hst : Kept s t) (htu : Kept t u) : Kept s u := by
  obtain ⟨l, hl⟩ := hst
  obtain ⟨l', hl'⟩ := htu
  refine ⟨l ++ l', ⟨?_, ?_, ?_, fun h => hl.connected (hl'.connected h),
    fun h => hl'.writeErrorOccurred (hl.writeErrorOccurred h)⟩⟩
  · rw [hl'.removed, hl.removed, List.append_assoc]
  · rw [← List.append_assoc]
    exact hl'.log.trans (hl.log.append_right l')
  · rw [List.append_assoc]
    exact hl.map.trans (hl'.map.append_left l)

theorem Kept.modify (h : Kept s t) {f : Stream → Stream} : Kept s (t.modify id f) :=
  h.trans (.of_eq rfl rfl rfl (fun h => h) fun h => h)

theorem Kept.nodup (h : Kept s t) (hs : s.dynamicStreamMap.Nodup) : t.dynamicStreamMap.Nodup := by
  obtain ⟨l, hl⟩ := h
  exact (List.nodup_append.1 (hl.map.nodup_iff.1 hs)).2.1

theorem Kept.load_le (h : Kept s t) : t.load ≤ s.load := by
  obtain ⟨l, hl⟩ := h
  have hlen := hl.map.length_eq
  rw [List.length_append] at hlen
  have hconnected : t.connected.toNat ≤ s.connected.toNat := by
    have := hl.connected
    revert this
    cases t.connected <;> cases s.connected <;> simp
  have herror : (!t.writeErrorOccurred).toNat ≤ (!s.writeErrorOccurred).toNat := by
    have := hl.writeErrorOccurred
    revert this
    cases t.writeErrorOccurred <;> cases s.writeErrorOccurred <;> simp
  unfold load
  omega

/-- What two of the functions are called for. -/
def Post : Call → Session → Prop
  | .closeStreamInner id _, t => id ∉ t.dynamicStreamMap
  | .onConnectionClosed, t => t.dynamicStreamMap = []
  | _, _ => True

/-- The postcondition of a call. -/
def After (c : Call) (s t : Session) : Prop := Kept s t ∧ Post c t

/-! ## Composing calls -/

/-- A computation that started in `s` returns. -/
def Ends (s : Session) (x : Option Session) : Prop := ∃ t, x = some t ∧ Kept s t

theorem Kept.ends (h : Kept s t) : Ends s (some t) := ⟨t, rfl, h⟩

theorem Ends.bind {f : Session → Option Session} (h : Ends s x)
    (hf : ∀ t, Kept s t → Ends s (f t)) : Ends s (x.bind f) := by
  obtain ⟨t, rfl, ht⟩ := h
  exact hf t ht

theorem Ends.map {f : Session → Session} (h : Ends s x) (hf : ∀ t, Kept s t → Kept s (f t)) :
    Ends s (x.map f) := by
  obtain ⟨t, rfl, ht⟩ := h
  exact (hf t ht).ends

theorem Ends.onlyIf {b : Bool} {f : Session → Option Session} (h : Kept s t)
    (hf : Ends s (f t)) : Ends s (Session.onlyIf b f t) := by
  cases b with
  | true => exact hf
  | false => exact h.ends

theorem Ends.foldlM {α : Type} {f : Session → α → Option Session} {l : List α}
    (hf : ∀ t a, Kept s t → Ends s (f t a)) (h : Kept s t) : Ends s (l.foldlM f t) := by
  induction l generalizing t with
  | nil => exact h.ends
  | cons a l ih => exact (hf t a h).bind fun u hu => ih hu

/-- The calls below `c` in `s` return, with their postconditions. -/
def Below (call : Call → Session → Option Session) (c : Call) (s : Session) : Prop :=
  ∀ c' s', c'.measure s' < c.measure s → s'.dynamicStreamMap.Nodup → Returns call After c' s'

/-- A call further down the order. -/
theorem Below.returns (h : Below call c s) (c' : Call) (hs : s.dynamicStreamMap.Nodup)
    (hk : Kept s t) (hrank : c'.rank < c.rank) : Returns call After c' t := by
  refine h c' t ?_ (hk.nodup hs)
  have := hk.load_le
  unfold Call.measure
  omega

theorem Below.ends (h : Below call c s) (hs : s.dynamicStreamMap.Nodup) (hk : Kept s t)
    (hrank : c'.rank < c.rank) : Ends s (call c' t) := by
  obtain ⟨u, hu, hafter⟩ := h.returns c' hs hk hrank
  exact ⟨u, hu, hk.trans hafter.1⟩

/-- Two calls further down the order, the first one under a condition. -/
theorem Below.ends_then {b : Bool} {c'' : Call} (h : Below call c s)
    (hs : s.dynamicStreamMap.Nodup) (hrank : c'.rank < c.rank) (hrank' : c''.rank < c.rank) :
    Ends s ((Session.onlyIf b (call c') s).bind (call c'')) :=
  (Ends.onlyIf (.refl s) (h.ends hs (.refl s) hrank)).bind fun _ ht => h.ends hs ht hrank'

/-- A call after one of the events that happen once. -/
theorem Below.ends_of_load (h : Below call c s) (hs : s.dynamicStreamMap.Nodup) (hk : Kept s t)
    (hload : t.load < s.load) : Ends s (call c' t) := by
  have hrank : c'.rank < 7 := by cases c' <;> simp
  have hmeasure : c'.measure t < c.measure s := by
    unfold Call.measure
    omega
  obtain ⟨u, hu, hafter⟩ := h c' t hmeasure (hk.nodup hs)
  exact ⟨u, hu, hk.trans hafter.1⟩

/-! ## The functions -/

/-- **`CloseStreamInner`** adds the stream to those that were taken out of the map while it
ran. -/
theorem closeStreamInner_correct {locallyReset : Bool} (hs : s.dynamicStreamMap.Nodup)
    (h : Below call (.closeStreamInner id locallyReset) s) :
    Returns (body call) After (.closeStreamInner id locallyReset) s := by
  by_cases hid : id ∈ s.dynamicStreamMap
  · set r : Session := if locallyReset then s.modify id fun x => { x with rstSent := true } else s
      with hr
    have hr' : r.dynamicStreamMap = s.dynamicStreamMap ∧ r.removed = s.removed ∧ r.log = s.log ∧
        r.connected = s.connected ∧ r.writeErrorOccurred = s.writeErrorOccurred := by
      rw [hr]
      split_ifs <;> exact ⟨rfl, rfl, rfl, rfl, rfl⟩
    obtain ⟨hmap, hremoved, hlog, hconnected, herror⟩ := hr'
    set r' : Session :=
      { r with dynamicStreamMap := r.dynamicStreamMap.erase id, removed := r.removed ++ [id] }
    have hlen : r'.dynamicStreamMap.length + 1 = s.dynamicStreamMap.length := by
      show (r.dynamicStreamMap.erase id).length + 1 = _
      rw [hmap, List.length_erase_of_mem hid]
      have := List.length_pos_of_mem hid
      omega
    have hload : r'.load + 1 = s.load := by
      unfold load
      rw [show r'.connected = s.connected from hconnected,
        show r'.writeErrorOccurred = s.writeErrorOccurred from herror]
      omega
    have hnodup : r'.dynamicStreamMap.Nodup := by
      show (r.dynamicStreamMap.erase id).Nodup
      rw [hmap]
      exact hs.erase id
    have hmeasure : (Call.onClose id).measure r' <
        (Call.closeStreamInner id locallyReset).measure s := by
      simp only [Call.measure, Call.rank]
      omega
    obtain ⟨t, ht, ⟨l, hl⟩, -⟩ := h (.onClose id) r' hmeasure hnodup
    have hperm : s.dynamicStreamMap.Perm (id :: (l ++ t.dynamicStreamMap)) := by
      refine (List.perm_cons_erase hid).trans (List.Perm.cons id ?_)
      rw [← hmap]
      exact hl.map
    refine ⟨{ t with log := t.log ++ [id] }, ?_, ⟨id :: l, ⟨?_, ?_, hperm, ?_, ?_⟩⟩, ?_⟩
    · rw [body, if_pos hid]
      show (call (.onClose id) r').bind _ = _
      rw [ht]
      rfl
    · show t.removed = _
      rw [hl.removed]
      show r.removed ++ [id] ++ l = _
      rw [hremoved, List.append_assoc]
      rfl
    · show (t.log ++ [id]).Perm (s.log ++ id :: l)
      have htlog : t.log.Perm (s.log ++ l) := hlog ▸ hl.log
      exact (htlog.append_right [id]).trans
        (by rw [List.append_assoc]; exact (List.perm_append_singleton id l).append_left s.log)
    · exact fun hc => hconnected ▸ hl.connected hc
    · exact fun he => hl.writeErrorOccurred (herror.trans he)
    · have := hperm.nodup_iff.1 hs
      exact fun hin => (List.nodup_cons.1 this).1 (List.mem_append_right l hin)
  · exact ⟨s, if_neg hid, Kept.refl s, hid⟩

/-- **The loop of `OnConnectionClosed`** ends when the map is empty. -/
theorem drain_correct {n : ℕ} (hs : s.dynamicStreamMap.Nodup) (h : Below call .onConnectionClosed s)
    (hk : Kept s t) (hn : t.dynamicStreamMap.length ≤ n) :
    ∃ u, drain call n t = some u ∧ Kept s u ∧ u.dynamicStreamMap = [] := by
  induction n generalizing t with
  | zero =>
    have hempty : t.dynamicStreamMap = [] := List.eq_nil_of_length_eq_zero (Nat.le_zero.1 hn)
    exact ⟨t, by simp [drain, hempty], hk, hempty⟩
  | succ n ih =>
    cases hmap : t.dynamicStreamMap with
    | nil => exact ⟨t, by rw [drain, hmap], hk, hmap⟩
    | cons id rest =>
      obtain ⟨u, hu, hku, -⟩ := h.returns (.streamOnConnectionClosed id) hs hk (by simp)
      -- whether the stream closed itself or not, it is gone after this round
      have hround : ∃ v,
          onlyIf (decide (id ∈ u.dynamicStreamMap)) (call (.closeStreamInner id false)) u = some v ∧
            Kept t v ∧ id ∉ v.dynamicStreamMap := by
        by_cases hid : id ∈ u.dynamicStreamMap
        · obtain ⟨v, hv, hkv, hgone⟩ :=
            h.returns (.closeStreamInner id false) hs (hk.trans hku) (by simp)
          exact ⟨v, by rw [onlyIf, if_pos (decide_eq_true hid), hv], hku.trans hkv, hgone⟩
        · exact ⟨u, if_neg (by simpa using hid), hku, hid⟩
      obtain ⟨v, hv, hkv, hgone⟩ := hround
      have hless : v.dynamicStreamMap.length ≤ n := by
        obtain ⟨l, hl⟩ := hkv
        have hin : id ∈ l ++ v.dynamicStreamMap := hl.map.subset (hmap ▸ List.mem_cons_self ..)
        have hpos := List.length_pos_of_mem ((List.mem_append.1 hin).resolve_right hgone)
        have hlen := hl.map.length_eq
        rw [List.length_append] at hlen
        omega
      obtain ⟨w, hw, hkw, hempty⟩ := ih (hk.trans hkv) hless
      refine ⟨w, ?_, hkw, hempty⟩
      rw [drain, hmap]
      show (call (.streamOnConnectionClosed id) t).bind _ = _
      rw [hu]
      show (onlyIf _ _ u).bind _ = _
      rw [hv]
      exact hw

/-- A function without a postcondition of its own. -/
theorem Ends.returns (h : Ends s (body call c s)) (hpost : ∀ t, Post c t) :
    Returns (body call) After c s := by
  obtain ⟨t, ht, hk⟩ := h
  exact ⟨t, ht, hk, hpost t⟩

/-- **Each function** returns and keeps the records, if the calls below it do. -/
theorem body_correct (hs : s.dynamicStreamMap.Nodup) (h : Below call c s) :
    Returns (body call) After c s := by
  have hrefl := Kept.refl s
  cases c with
  | closeStreamInner id locallyReset => exact closeStreamInner_correct hs h
  | onConnectionClosed =>
    obtain ⟨t, ht, hk, hempty⟩ := drain_correct hs h hrefl (Nat.le_refl _)
    exact ⟨t, ht, hk, hempty⟩
  | sendRstStream id =>
    refine Ends.returns ?_ fun _ => trivial
    rw [body]
    split_ifs
    · exact hrefl.ends
    · exact h.ends_then hs (by simp) (by simp)
  | onClose id =>
    refine Ends.returns ?_ fun _ => trivial
    refine (h.ends hs hrefl (by simp)).bind fun t ht => ?_
    refine (h.ends hs ht (by simp)).bind fun t ht => ?_
    refine (Ends.onlyIf ht ?_).bind fun t ht => h.ends hs ht (by simp)
    exact (h.ends hs ht (by simp)).map fun t ht => ht.modify
  | closeReadSide id =>
    refine Ends.returns ?_ fun _ => trivial
    rw [body]
    split_ifs
    · exact hrefl.ends
    · exact Ends.onlyIf hrefl.modify (h.ends hs hrefl.modify (by simp))
  | closeWriteSide id =>
    refine Ends.returns ?_ fun _ => trivial
    rw [body]
    split_ifs
    · exact hrefl.ends
    · exact Ends.onlyIf hrefl.modify (h.ends hs hrefl.modify (by simp))
  | serverCloseWriteSide id =>
    refine Ends.returns ?_ fun _ => trivial
    exact h.ends_then hs (by simp) (by simp)
  | reset id =>
    refine Ends.returns ?_ fun _ => trivial
    exact (h.ends hs hrefl (by simp)).map fun t ht => ht.modify
  | addBytesConsumed id =>
    refine Ends.returns ?_ fun _ => trivial
    exact h.ends_then hs (by simp) (by simp)
  | streamOnConnectionClosed id =>
    refine Ends.returns ?_ fun _ => trivial
    rw [body]
    split_ifs
    · exact hrefl.ends
    · exact (h.ends hs hrefl (by simp)).bind fun t ht => h.ends hs ht (by simp)
  | onStreamReset id noError =>
    refine Ends.returns ?_ fun _ => trivial
    exact (h.ends hs hrefl.modify (by simp)).bind fun t ht =>
      Ends.onlyIf ht (h.ends hs ht (by simp))
  | onFinRead id =>
    refine Ends.returns ?_ fun _ => trivial
    exact h.ends hs hrefl.modify (by simp)
  | stopReading id isClosed =>
    refine Ends.returns ?_ fun _ => trivial
    refine (Ends.onlyIf hrefl (h.ends hs hrefl (by simp))).bind fun t ht => ?_
    split_ifs
    · exact ht.ends
    · exact (h.ends hs ht.modify (by simp)).bind fun t ht =>
        Ends.onlyIf ht (h.ends hs ht (by simp))
  | writevData id finConsumed tooMuch =>
    refine Ends.returns ?_ fun _ => trivial
    rw [body]
    split_ifs
    · exact hrefl.ends
    · refine (h.ends hs hrefl (by simp)).bind fun t ht => ?_
      refine (Ends.onlyIf ht (h.ends hs ht (by simp))).bind fun t ht => ?_
      split_ifs
      · exact ht.ends
      · exact (h.ends hs ht (by simp)).bind fun t ht =>
          Ends.onlyIf ht (h.ends hs ht.modify (by simp))
  | write =>
    refine Ends.returns ?_ fun _ => trivial
    rw [body]
    cases hscript : s.script with
    | nil => exact hrefl.ends
    | cons outcomes script =>
      refine Ends.foldlM (fun t o ht => ?_)
        (hrefl.trans (.of_eq rfl rfl rfl (fun h => h) fun h => h))
      cases o with
      | ok => exact ht.ends
      | tooBig => exact h.ends hs ht (by simp)
      | failed => exact h.ends hs ht (by simp)
      | notSerialized => exact h.ends hs ht (by simp)
  | onWriteError tooBig =>
    refine Ends.returns ?_ fun _ => trivial
    rw [body]
    split_ifs with herror
    · exact hrefl.ends
    all_goals
      have hk : Kept s { s with writeErrorOccurred := true } :=
        .of_eq rfl rfl rfl (fun h => h) fun _ => rfl
      refine h.ends_of_load hs hk ?_
      simp [load, herror]
  | closeConnection sendPacket =>
    refine Ends.returns ?_ fun _ => trivial
    rw [body]
    split_ifs
    · exact h.ends_then hs (by simp) (by simp)
    · exact hrefl.ends
  | tearDownLocalConnectionState =>
    refine Ends.returns ?_ fun _ => trivial
    rw [body]
    split_ifs with hconnected
    · have hk : Kept s { s with connected := false } :=
        .of_eq rfl rfl rfl (fun h => absurd h (by simp)) fun h => h
      refine h.ends_of_load hs hk ?_
      simp [load, hconnected]
    · exact hrefl.ends

/-! ## The operations -/

/-- **Every call returns**, whatever becomes of the packets it sends, and keeps the
records. -/
theorem perform_correct (hs : s.dynamicStreamMap.Nodup) (c : Call)
    (script : List (List Outcome)) :
    ∃ t, s.perform c script = some t ∧ Kept s t ∧ Post c t := by
  have hexec : Returns (exec body (c.measure s + 1)) After c { s with script := script } := by
    refine exec_correct (P := fun _ s => s.dynamicStreamMap.Nodup) Call.measure ?_
      (Nat.lt_succ_self _) hs
    intro call c s hs h
    exact body_correct hs h
  obtain ⟨t, ht, ⟨l, hl⟩, hpost⟩ := hexec
  exact ⟨t, ht, ⟨l, hl.removed, hl.log, hl.map, hl.connected, hl.writeErrorOccurred⟩, hpost⟩

/-- No stream is in the map again after it was taken out, and the records are those of the
streams that were taken out. -/
structure Sound (s : Session) : Prop where
  nodup : (s.removed ++ s.dynamicStreamMap).Nodup
  log : s.log.Perm s.removed

theorem Sound.new : Session.new.Sound := ⟨List.nodup_nil, List.Perm.refl _⟩

theorem Sound.map_nodup (h : s.Sound) : s.dynamicStreamMap.Nodup :=
  (List.nodup_append.1 h.nodup).2.1

theorem Sound.kept (h : s.Sound) (hk : Kept s t) : t.Sound := by
  obtain ⟨l, hl⟩ := hk
  constructor
  · rw [hl.removed, List.append_assoc]
    exact (hl.map.append_left s.removed).nodup_iff.1 h.nodup
  · rw [hl.removed]
    exact hl.log.trans (h.log.append_right l)

theorem Sound.perform {script : List (List Outcome)} (h : s.Sound)
    (ht : s.perform c script = some t) : t.Sound := by
  obtain ⟨u, hu, hk, -⟩ := perform_correct h.map_nodup c script
  obtain rfl := Option.some.inj (hu.symm.trans ht)
  exact h.kept hk

theorem Sound.activateStream {order : List ℕ} (h : s.Sound)
    (ht : s.activateStream id order = some t) : t.Sound := by
  unfold Session.activateStream at ht
  split_ifs at ht with hnew
  obtain rfl := Option.some.inj ht
  obtain ⟨hmap, hremoved, -, horder⟩ := hnew
  refine ⟨?_, h.log⟩
  refine (horder.append_left s.removed).nodup_iff.2 (List.perm_middle.nodup_iff.2 ?_)
  refine List.nodup_cons.2 ⟨fun hin => ?_, h.nodup⟩
  rcases List.mem_append.1 hin with hin | hin
  · exact hremoved hin
  · exact hmap hin

/-- **One operation.** -/
theorem Sound.step {op : Op × List (List Outcome)} (h : s.Sound) (ht : s.step op = some t) :
    t.Sound := by
  obtain ⟨op, script⟩ := op
  cases op with
  | activateStream id order => exact h.activateStream ht
  | onRstStream id noError =>
    simp only [Session.step] at ht
    split_ifs at ht
    · exact h.perform ht
    · exact Option.some.inj ht ▸ h
  | _ =>
    simp only [Session.step, Op.call, Option.bind_some] at ht
    exact h.perform ht

/-! ## The log -/

/-- **The log has one record for each closed stream:** as many records as streams were taken
out of the map, none of them twice; every call returns; and the loop of `OnConnectionClosed`
would end with an empty map and one more record for each stream that was in it. -/
structure Recorded (s : Session) : Prop where
  log : s.log.Perm s.removed
  length : s.log.length = s.removed.length
  nodup : s.log.Nodup
  returns : ∀ c script, ∃ t, s.perform c script = some t
  drains : ∀ script, ∃ t l,
    { s with connected := false }.perform .onConnectionClosed script = some t ∧
      t.dynamicStreamMap = [] ∧ l.Perm s.dynamicStreamMap ∧ t.removed = s.removed ++ l ∧
      t.log.Perm (s.log ++ s.dynamicStreamMap) ∧ t.log.Nodup

theorem Sound.log_nodup (h : s.Sound) : s.log.Nodup :=
  h.log.nodup_iff.2 (List.nodup_append.1 h.nodup).1

theorem Sound.recorded (h : s.Sound) : s.Recorded := by
  refine ⟨h.log, h.log.length_eq, h.log_nodup, fun c script => ?_, fun script => ?_⟩
  · obtain ⟨t, ht, -⟩ := perform_correct h.map_nodup c script
    exact ⟨t, ht⟩
  · have h' : { s with connected := false }.Sound := ⟨h.nodup, h.log⟩
    obtain ⟨t, ht, hk, hempty⟩ := perform_correct h'.map_nodup .onConnectionClosed script
    have hlog := (h'.kept hk).log_nodup
    obtain ⟨l, hl⟩ := hk
    have hperm : l.Perm s.dynamicStreamMap := by
      have hmap := hl.map
      rw [show t.dynamicStreamMap = [] from hempty, List.append_nil] at hmap
      exact hmap.symm
    exact ⟨t, l, ht, hempty, hperm, hl.removed, hl.log.trans (hperm.append_left s.log), hlog⟩

/-- **One record for each closed stream.**  In every state between the operations on a server
session, in any order and with any outcomes of the writes, the log has exactly one record for
each stream that was taken out of the map, and the loop that closes all streams ends with
each of them removed and recorded. -/
theorem always_recorded (ops : List (Op × List (List Outcome))) :
    Always Session.step Recorded Session.new ops :=
  (always_of_step (fun _ _ _ hs ht => Sound.step hs ht) Sound.new).mono fun _ hs => hs.recorded

/-- A write error while stream 5 is closed: stream 7 is closed, and recorded, from inside. -/
example :
    (run Session.step Session.new
      [(.activateStream 5 [5], []), (.activateStream 7 [5, 7], []),
        (.closeStream 5, [[.failed]])]).map (fun s => (s.removed, s.log)) =
      some ([5, 7], [7, 5]) := by
  decide +kernel

end Session
end Closing
end QuicNs3
