/-
# Answering a request

`SendResponse` reads the header `max_bytes` without looking whether it is there, and
asserts that it is a number.  It answers as it should exactly if that goes well, or if it
does not come to it (`sendResponse_writes_iff`): a request with no headers, or with less or
more data than it has announced, gets the error response before.
-/

import QuicNs3.Server.Stream

namespace QuicNs3
namespace Server

open Lib Streams

/-- The response with `n` bytes. -/
def okResponse (n : ℕ) : Response where
  headers := [("content-length", uint64ToString n), (":status", "200".toList)]
  body := payload initialSeed n

theorem okResponse_ne_sendErrorResponse (n : ℕ) : okResponse n ≠ sendErrorResponse := by
  intro h
  have hname : "content-length" = ":status" :=
    congrArg (fun r : Response => ((r.headers.head?).map Prod.fst).getD "") h
  exact absurd hname (by decide)

/-- What is written tells the response. -/
theorem Response.writes_injective {r r' : Response} (h : r.writes = r'.writes) : r = r' := by
  obtain ⟨headers, body⟩ := r
  obtain ⟨headers', body'⟩ := r'
  unfold Response.writes at h
  cases body <;> cases body' <;> simp_all

namespace SimpleServerStream

variable {s t : SimpleServerStream} {sent : Bool}

/-! ## What is written -/

/-- The write side has its FIN, and takes no more data. -/
def Finished (s : SimpleServerStream) : Prop := s.writeSideClosed = true ∨ s.finBuffered = true

instance : Decidable s.Finished := inferInstanceAs (Decidable (_ ∨ _))

/-- **Sending a response.**  The header block is written in any case, the body unless the
write side is finished. -/
theorem sendHeadersAndBody_spec (s : SimpleServerStream) (sent : Bool) (r : Response) :
    ∃ ws, (s.sendHeadersAndBody sent r).writes = s.writes ++ ws ∧
      (ws = r.writes ∨ s.Finished ∧ ws = [.headers r.headers false]) ∧
      (s.sendHeadersAndBody sent r).Finished := by
  unfold sendHeadersAndBody Response.writes writeHeaders
  cases hbody : r.body.isEmpty with
  | true => exact ⟨_, rfl, .inl rfl, .inl rfl⟩
  | false =>
    unfold writeOrBufferData
    simp only [Bool.not_true, Bool.and_false, Bool.false_eq_true, if_false, Bool.true_and,
      Finished]
    cases hbuffered : s.finBuffered with
    | true => exact ⟨_, rfl, .inr ⟨.inr rfl, rfl⟩, .inr rfl⟩
    | false =>
      cases hclosed : s.writeSideClosed with
      | true => exact ⟨_, rfl, .inr ⟨.inl rfl, rfl⟩, .inl rfl⟩
      | false =>
        refine ⟨_, ?_, .inl rfl, ?_⟩
        · cases sent <;> simp [closeWriteSide]
        · cases sent <;> simp [closeWriteSide]

/-- **A response is written in full** where the write side is not finished. -/
theorem writes_sendHeadersAndBody (h : ¬s.Finished) (r : Response) :
    (s.sendHeadersAndBody sent r).writes = s.writes ++ r.writes := by
  obtain ⟨ws, hws, rfl | ⟨hfin, -⟩, -⟩ := s.sendHeadersAndBody_spec sent r
  · exact hws
  · exact absurd hfin h

/-! ## One request -/

/-- The number in the header `max_bytes`. -/
def maxBytes (s : SimpleServerStream) : Option ℕ :=
  (s.requestHeaders.lookup "max_bytes").bind stringToUint32

/-- The answer that a request should get. -/
def answer (s : SimpleServerStream) : Response :=
  match s.maxBytes with
  | some n => okResponse n
  | none => Server.sendErrorResponse

/-- The request has announced another size than that of its body. -/
def Misannounced (s : SimpleServerStream) : Prop :=
  0 < s.contentLength ∧ s.contentLength ≠ s.bodySize

instance : Decidable s.Misannounced := inferInstanceAs (Decidable (_ ∧ _))

/-- The requests that get their answer. -/
def Answerable (s : SimpleServerStream) : Prop :=
  match s.maxBytes with
  | some n => n < 2 ^ 31 ∧ ¬s.Misannounced
  | none => s.requestHeaders = [] ∨ s.Misannounced

/-- What `SendResponse` sends for a request. -/
theorem sendResponse_eq_some_iff {r : Response} :
    Server.sendResponse s.requestHeaders s.contentLength (List.replicate s.bodySize 0) = some r ↔
      (s.requestHeaders = [] ∨ s.Misannounced) ∧ r = Server.sendErrorResponse ∨
      ¬(s.requestHeaders = [] ∨ s.Misannounced) ∧
        ∃ n, s.maxBytes = some n ∧ n < 2 ^ 31 ∧ r = okResponse n := by
  have hmis : (s.contentLength > 0 ∧
      s.contentLength.toNat ≠ (List.replicate s.bodySize (0 : Int8)).length) ↔ s.Misannounced := by
    rw [List.length_replicate]
    unfold Misannounced
    omega
  have hbytes : (s.requestHeaders.lookup "max_bytes").bind stringToUint32 = s.maxBytes := rfl
  unfold Server.sendResponse
  by_cases hempty : s.requestHeaders = []
  · rw [if_pos (List.isEmpty_iff.2 hempty)]
    simp [hempty, eq_comm]
  rw [if_neg (List.isEmpty_iff.not.2 hempty)]
  by_cases hm : s.Misannounced
  · rw [if_pos (hmis.2 hm)]
    simp [hm, eq_comm]
  rw [if_neg (hmis.not.2 hm), hbytes]
  cases s.maxBytes with
  | none => simp [hempty, hm]
  | some n => simp [hempty, hm, okResponse, pushBytes_eq, eq_comm]

/-- **A request gets its answer exactly if** it has a number below `2 ^ 31` in `max_bytes`
and the body it has announced, or has no such number, and either no header at all or
another body than announced. -/
theorem sendResponse_writes_iff (s : SimpleServerStream) (sent : Bool) (h : ¬s.Finished) :
    (∃ t, s.sendResponse sent = some t ∧ t.writes = s.writes ++ s.answer.writes) ↔
      s.Answerable := by
  have hwrites : (∃ t, s.sendResponse sent = some t ∧ t.writes = s.writes ++ s.answer.writes) ↔
      Server.sendResponse s.requestHeaders s.contentLength (List.replicate s.bodySize 0) =
        some s.answer := by
    unfold sendResponse
    constructor
    · rintro ⟨t, ht, hw⟩
      obtain ⟨r, hr, rfl⟩ := Option.map_eq_some_iff.1 ht
      rw [writes_sendHeadersAndBody h, List.append_cancel_left_eq] at hw
      rw [hr, Response.writes_injective hw]
    · intro hr
      rw [hr]
      exact ⟨_, rfl, writes_sendHeadersAndBody h _⟩
  rw [hwrites, sendResponse_eq_some_iff]
  unfold Answerable answer
  cases hn : s.maxBytes with
  | none => simp
  | some n =>
    have hne := okResponse_ne_sendErrorResponse n
    have hsome : s.requestHeaders ≠ [] := by
      rintro hnil
      simp [maxBytes, hnil] at hn
    simp [hne, hsome, and_comm]

/-- A stream that has read a header list, and neither body nor FIN. -/
def asked (headers : HeaderBlock) : SimpleServerStream :=
  { new with headersDecompressed := true, requestHeaders := headers }

/-- A request for three bytes gets them. -/
theorem sendResponse_writes_three :
    ¬(asked (sendRequest 3)).Finished ∧
      ∃ t, (asked (sendRequest 3)).sendResponse true = some t ∧
        t.writes = (okResponse 3).writes :=
  ⟨by decide, (sendResponse_writes_iff (asked (sendRequest 3)) true (by decide)).2
    ⟨by decide, by decide⟩⟩

/-- A request with a path and nothing else is valid, and the server stops at it. -/
theorem not_sendResponse_writes_path :
    (copyAndValidateHeaders (-1) [] [(":path", ['/'])]).valid = true ∧
      new.step (.headerList true true [(":path", ['/'])]) = none ∧
      ¬∃ t, (asked [(":path", ['/'])]).sendResponse true = some t ∧
        t.writes = Server.sendErrorResponse.writes := by
  have hnone : (asked [(":path", ['/'])]).sendResponse true = none := by decide
  refine ⟨by decide, by decide, ?_⟩
  rintro ⟨t, ht, -⟩
  exact absurd (hnone.symm.trans ht) (by simp)

end SimpleServerStream

end Server
end QuicNs3
