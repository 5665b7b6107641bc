/-
# The payload and its check

Model of `SendResponse` (`net/tools/quic/quic_simple_server_stream.cc`), which answers
a request with as many bytes as its header `max_bytes` says, of `SendRequest`
(`utils/quic-client.cc`), which writes that header, and of the check in `OnClose`
(`net/tools/quic/quic_spdy_client_base.cc`).  The bytes are the low bytes of a
generator that multiplies by 47 modulo `2 ^ 32`; the server runs it to write them and
the client runs it to compare.  A `char` is signed.

Texts are lists of characters.  `Uint64ToString` writes `decimal`, and
`StringToUint32` is `ParseUint32` (`net/base/parse_number.cc`) with the loop of
`base::StringToUint`.  The value `none` stands for a failed assertion, for a header
that is read and not there, or for a counter that overflows.

`payloadAt` is the sequence that both loops follow, and `payload_language` says that
the check accepts what the server sends and nothing else.
-/

import QuicNs3.Lib.Decimal

namespace QuicNs3
namespace Server

open Lib

/-- `SpdyHeaderBlock`: names and values in the order of insertion. -/
abbrev HeaderBlock := List (String × List Char)

/-- Headers and body of a response. -/
structure Response where
  headers : HeaderBlock
  body : List Int8
  deriving Repr, DecidableEq

/-! ## Numbers -/

/-- The largest `uint32_t`. -/
def maxUint32 : ℕ := 2 ^ 32 - 1

/-- `Uint64ToString`. -/
def uint64ToString (n : ℕ) : List Char := decimal n

/-- `CharToDigit` for base 10. -/
def charToDigit (c : Char) : Option ℕ :=
  if c.isDigit then some (c.toNat - '0'.toNat) else none

/-- The loop of `StringToUint` after the first digit, with its check of the bounds, for
numbers up to a maximum. -/
def toUintFrom (max output : ℕ) : List Char → Option ℕ
  | [] => some output
  | c :: cs =>
    match charToDigit c with
    | none => none
    | some newDigit =>
      if output > max / 10 ∨ (output = max / 10 ∧ newDigit > max % 10) then none
      else toUintFrom max (output * 10 + newDigit) cs

/-- `StringToUint` for a text of digits. -/
def digitsToUint (max : ℕ) : List Char → Option ℕ
  | [] => none
  | c :: cs => (charToDigit c).bind fun digit => toUintFrom max digit cs

/-- `StringToUint32`.  A text that starts with a digit has no space and no sign for
`StringToUint` to skip. -/
def stringToUint32 (text : List Char) : Option ℕ := digitsToUint maxUint32 text

/-! ## The two loops -/

/-- `char(seed % 256)`. -/
def seedChar (seed : UInt32) : Int8 := (seed % 256).toUInt8.toInt8

def initialSeed : UInt32 := 48151623

/-- The loop of `SendResponse`, with `n` rounds to go. -/
def pushBytes : ℕ → List Int8 → UInt32 → List Int8
  | 0, s, _ => s
  | n + 1, s, seed => pushBytes n (s ++ [seedChar seed]) (seed * 47)

/-- The loop of `OnClose`. -/
def compareBytes (ok : Bool) (seed : UInt32) : List Int8 → Bool
  | [] => ok
  | c :: body => compareBytes (ok && c == seedChar seed) (seed * 47) body

/-- `SendErrorResponse`. -/
def sendErrorResponse : Response where
  headers := [(":status", "500".toList), ("content-length", uint64ToString 3)]
  body := [98, 97, 100]

/-- `SendResponse` of a stream with the given request headers, content length and body.
The counter of its loop is an `int`. -/
def sendResponse (requestHeaders : HeaderBlock) (contentLength : ℤ) (body : List Int8) :
    Option Response :=
  if requestHeaders.isEmpty then some sendErrorResponse
  else if contentLength > 0 ∧ contentLength.toNat ≠ body.length then some sendErrorResponse
  else
    match (requestHeaders.lookup "max_bytes").bind stringToUint32 with
    | none => none
    | some n =>
      if n < 2 ^ 31 then
        some
          { headers := [("content-length", uint64ToString n), (":status", "200".toList)]
            body := pushBytes n [] initialSeed }
      else none

/-- The headers of `SendRequest`. -/
def sendRequest (maxBytes : ℕ) : HeaderBlock := [("max_bytes", uint64ToString maxBytes)]

/-- The value of `ok` that `OnClose` asserts. -/
def onClose (r : Response) : Option Bool :=
  (r.headers.lookup "content-length").map fun text =>
    compareBytes (uint64ToString r.body.length == text) initialSeed r.body

/-! ## The sequence -/

/-- The byte at a position. -/
def payloadAt (seed : UInt32) (i : ℕ) : Int8 := seedChar (seed * UInt32.ofNat (47 ^ i))

/-- The first `n` bytes. -/
def payload (seed : UInt32) (n : ℕ) : List Int8 := (List.range n).map (payloadAt seed)

theorem payloadAt_succ (seed : UInt32) (i : ℕ) :
    payloadAt seed (i + 1) = payloadAt (seed * 47) i := by
  unfold payloadAt
  rw [pow_succ, Nat.mul_comm, UInt32.ofNat_mul, ← UInt32.mul_assoc]
  rfl

theorem payload_succ (seed : UInt32) (n : ℕ) :
    payload seed (n + 1) = seedChar seed :: payload (seed * 47) n := by
  have hzero : payloadAt seed 0 = seedChar seed := by simp [payloadAt]
  have htail : payloadAt seed ∘ Nat.succ = payloadAt (seed * 47) :=
    funext fun i => payloadAt_succ seed i
  unfold payload
  rw [List.range_succ_eq_map, List.map_cons, List.map_map, hzero, htail]

/-- **The server writes the sequence.** -/
theorem pushBytes_eq (n : ℕ) (s : List Int8) (seed : UInt32) :
    pushBytes n s seed = s ++ payload seed n := by
  induction n generalizing s seed with
  | zero => simp [pushBytes, payload]
  | succ n ih => rw [pushBytes, ih, payload_succ, List.append_assoc, List.singleton_append]

/-- **The client compares with it**, position by position. -/
theorem compareBytes_eq_true_iff (ok : Bool) (seed : UInt32) (b : List Int8) :
    compareBytes ok seed b = true ↔ ok = true ∧ b = payload seed b.length := by
  induction b generalizing ok seed with
  | nil => simp [compareBytes, payload]
  | cons c b ih =>
    rw [compareBytes, ih, List.length_cons, payload_succ, List.cons.injEq, Bool.and_eq_true,
      beq_iff_eq, and_assoc]

/-! ## Reading a number back -/

theorem le_ofDigitChars (cs : List Char) (output : ℕ) :
    output ≤ Nat.ofDigitChars 10 cs output := by
  induction cs generalizing output with
  | nil => exact Nat.le_refl _
  | cons c cs ih =>
    rw [Nat.ofDigitChars_cons]
    exact (by omega : output ≤ 10 * output + (c.toNat - '0'.toNat)).trans (ih _)

/-- Digits are read as long as the number is in the range. -/
theorem toUintFrom_digits {cs : List Char} (hdigits : ∀ c ∈ cs, c.isDigit) {max output : ℕ}
    (hmax : Nat.ofDigitChars 10 cs output ≤ max) :
    toUintFrom max output cs = some (Nat.ofDigitChars 10 cs output) := by
  induction cs generalizing output with
  | nil => rfl
  | cons c cs ih =>
    have hc : charToDigit c = some (c.toNat - '0'.toNat) :=
      if_pos (hdigits c List.mem_cons_self)
    rw [Nat.ofDigitChars_cons] at hmax ⊢
    have hnext : 10 * output + (c.toNat - '0'.toNat) ≤ max :=
      (le_ofDigitChars cs _).trans hmax
    have hbound : ¬ (output > max / 10 ∨
        (output = max / 10 ∧ c.toNat - '0'.toNat > max % 10)) := by omega
    rw [toUintFrom, hc]
    dsimp only
    rw [if_neg hbound, Nat.mul_comm output]
    exact ih (fun d hd => hdigits d (List.mem_cons_of_mem c hd)) hmax

/-- **What `SendRequest` writes is what `SendResponse` reads.** -/
theorem stringToUint32_uint64ToString {n : ℕ} (hn : n ≤ maxUint32) :
    stringToUint32 (uint64ToString n) = some n := by
  have hvalue : Nat.ofDigitChars 10 (uint64ToString n) 0 = n :=
    Nat.ofDigitChars_toDigits (by decide) (by decide)
  have hdigits : ∀ c ∈ uint64ToString n, c.isDigit := fun c hc => isDigit_of_mem_decimal hc
  cases htext : uint64ToString n with
  | nil => exact absurd htext (decimal_ne_nil n)
  | cons c cs =>
    rw [htext] at hvalue hdigits
    have hc : charToDigit c = some (c.toNat - '0'.toNat) :=
      if_pos (hdigits c List.mem_cons_self)
    rw [Nat.ofDigitChars_cons, Nat.mul_zero, Nat.zero_add] at hvalue
    rw [stringToUint32, digitsToUint, hc, Option.bind_some,
      toUintFrom_digits (fun d hd => hdigits d (List.mem_cons_of_mem c hd)) (hvalue.trans_le hn),
      hvalue]

/-! ## One language -/

/-- **What the check accepts**: the decimal length of the body, and the sequence. -/
theorem onClose_iff {r : Response} {text : List Char}
    (h : r.headers.lookup "content-length" = some text) :
    onClose r = some true ↔
      text = uint64ToString r.body.length ∧ r.body = payload initialSeed r.body.length := by
  unfold onClose
  rw [h, Option.map_some, Option.some.injEq, compareBytes_eq_true_iff, beq_iff_eq]
  exact and_congr_left fun _ => eq_comm

/-- **What the server sends**, if the request is well formed and `max_bytes` is less than
`2 ^ 31`. -/
theorem sendResponse_eq {request : HeaderBlock} {contentLength : ℤ} {body : List Int8}
    {text : List Char} {n : ℕ} (hn : n < 2 ^ 31) (htext : request.lookup "max_bytes" = some text)
    (hread : stringToUint32 text = some n)
    (hlength : contentLength ≤ 0 ∨ contentLength = body.length) :
    sendResponse request contentLength body =
      some ⟨[("content-length", uint64ToString n), (":status", "200".toList)],
        payload initialSeed n⟩ := by
  have hnonempty : ¬ request.isEmpty = true := by
    rintro hempty
    rw [List.isEmpty_iff.1 hempty] at htext
    exact absurd htext (by simp)
  have hwhole : ¬ (contentLength > 0 ∧ contentLength.toNat ≠ body.length) := by omega
  unfold sendResponse
  rw [if_neg hnonempty, if_neg hwhole, htext, Option.bind_some, hread]
  dsimp only
  rw [if_pos hn, pushBytes_eq, List.nil_append]

/-- **The server and the client agree on the payload.**  The check accepts every response
that the server generates; and a response it accepts has the decimal length of its body
for content length, and the body that the server's loop generates for that length.  Up
to the lengths that the server's counter can hold, the server sends just that in answer
to a request of the client. -/
theorem payload_language :
    (∀ (request : HeaderBlock) (contentLength : ℤ) (body : List Int8) (text : List Char) (n : ℕ),
      n < 2 ^ 31 → request.lookup "max_bytes" = some text → stringToUint32 text = some n →
      (contentLength ≤ 0 ∨ contentLength = body.length) →
      ∃ r, sendResponse request contentLength body = some r ∧
        r.headers.lookup "content-length" = some (uint64ToString n) ∧ onClose r = some true) ∧
    ∀ (r : Response) (text : List Char), r.headers.lookup "content-length" = some text →
      onClose r = some true →
      text = uint64ToString r.body.length ∧ r.body = pushBytes r.body.length [] initialSeed ∧
        (r.body.length < 2 ^ 31 →
          ∃ sent, sendResponse (sendRequest r.body.length) (-1) [] = some sent ∧
            sent.headers.lookup "content-length" = some text ∧ sent.body = r.body) := by
  constructor
  · intro request contentLength body text n hn htext hread hlength
    refine ⟨_, sendResponse_eq hn htext hread hlength, rfl, ?_⟩
    have hsize : (payload initialSeed n).length = n := by simp [payload]
    rw [onClose_iff rfl, hsize]
    exact ⟨rfl, rfl⟩
  · intro r text htext hok
    obtain ⟨hlength, hbody⟩ := (onClose_iff htext).1 hok
    refine ⟨hlength, ?_, fun hn => ?_⟩
    · rw [pushBytes_eq, List.nil_append]
      exact hbody
    · have hread : stringToUint32 (uint64ToString r.body.length) = some r.body.length :=
        stringToUint32_uint64ToString (by unfold maxUint32; omega)
      refine ⟨_, sendResponse_eq hn rfl hread (.inl (by decide)), ?_, hbody.symm⟩
      rw [hlength]
      rfl

/-- Three bytes, and the check on them. -/
example : sendResponse (sendRequest 3) (-1) [] =
    some ⟨[("content-length", ['3']), (":status", ['2', '0', '0'])], [71, 9, -89]⟩ := by
  decide

end Server
end QuicNs3
