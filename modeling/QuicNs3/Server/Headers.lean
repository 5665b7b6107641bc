/-
# The headers of a request

Model of `CopyAndValidateHeaders` and `ExtractContentLengthFromHeaders`
(`net/quic/core/spdy_utils.cc`), with `AppendValueOrAddHeader`
(`net/spdy/core/spdy_header_block.cc`) and the functions of `base/strings` that they use.

Both write their results as they go, so that a block that is refused may have set the
content length: the values of several headers `content-length` are compared one after the
other, and the first one has been taken by then.
-/

import QuicNs3.Server.Response

namespace QuicNs3
namespace Server

/-! ## Texts -/

/-- `kNullSeparator`. -/
def nullSeparator : Char := Char.ofNat 0

/-- The characters of `kWhitespaceASCII`. -/
def isWhitespace (c : Char) : Bool := c.toNat == 32 || (9 ≤ c.toNat && c.toNat ≤ 13)

/-- `TrimString`. -/
def trimString (text : List Char) : List Char :=
  ((text.dropWhile isWhitespace).reverse.dropWhile isWhitespace).reverse

/-- `QuicTextUtils::Split` at the separator. -/
def split (text : List Char) : List (List Char) :=
  if text.isEmpty then [] else (text.splitOn nullSeparator).map trimString

/-- The largest `uint64_t`. -/
def maxUint64 : ℕ := 2 ^ 64 - 1

/-- `StringToUint64`: a sign `+` is skipped, and anything else that is no digit makes it
fail. -/
def stringToUint64 : List Char → Option ℕ
  | '+' :: cs => digitsToUint maxUint64 cs
  | cs => digitsToUint maxUint64 cs

/-! ## Header blocks -/

/-- `SeparatorForKey`. -/
def separatorForKey (name : String) : List Char :=
  if name = "cookie" then [';', ' '] else [nullSeparator]

/-- `AppendValueOrAddHeader`. -/
def appendValueOrAddHeader (name : String) (value : List Char) : HeaderBlock → HeaderBlock
  | [] => [(name, value)]
  | (key, values) :: block =>
    if key = name then (key, values ++ separatorForKey name ++ value) :: block
    else (key, values) :: appendValueOrAddHeader name value block

/-- `ContainsUpperCase`. -/
def containsUpperCase (name : String) : Bool := name.toList.any Char.isUpper

/-- The loop of `CopyAndValidateHeaders`: whether all names are valid, and the headers up
to the first that is not. -/
def copyHeaders (headers : HeaderBlock) : HeaderBlock → Bool × HeaderBlock
  | [] => (true, headers)
  | (name, value) :: list =>
    if name = "" then (false, headers)
    else if containsUpperCase name then (false, headers)
    else copyHeaders (appendValueOrAddHeader name value headers) list

/-- A `uint64_t` as an `int64_t`. -/
def toInt64 (n : ℕ) : ℤ := if n < 2 ^ 63 then n else n - 2 ^ 64

/-- The loop of `ExtractContentLengthFromHeaders` over the values of the header. -/
def extractContentLength (contentLength : ℤ) : List (List Char) → Bool × ℤ
  | [] => (true, contentLength)
  | value :: values =>
    match stringToUint64 value with
    | none => (false, contentLength)
    | some newValue =>
      if contentLength < 0 then extractContentLength (toInt64 newValue) values
      else if (newValue : ℤ) ≠ contentLength then (false, contentLength)
      else extractContentLength contentLength values

/-- What `CopyAndValidateHeaders` returns and writes. -/
structure Validated where
  valid : Bool
  contentLength : ℤ
  headers : HeaderBlock
  deriving Repr, DecidableEq

/-- `CopyAndValidateHeaders`. -/
def copyAndValidateHeaders (contentLength : ℤ) (headers list : HeaderBlock) : Validated :=
  match copyHeaders headers list with
  | (false, headers) => ⟨false, contentLength, headers⟩
  | (true, headers) =>
    match headers.lookup "content-length" with
    | none => ⟨true, contentLength, headers⟩
    | some value =>
      let r := extractContentLength contentLength (split value)
      ⟨r.1, r.2, headers⟩

/-- Of two different lengths the first one is taken, though the block is refused. -/
example : copyAndValidateHeaders (-1) [] [("content-length", ['5']), ("content-length", ['7'])] =
    ⟨false, 5, [("content-length", ['5', nullSeparator, '7'])]⟩ := by
  decide

end Server
end QuicNs3
