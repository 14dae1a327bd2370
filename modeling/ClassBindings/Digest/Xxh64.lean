/-! # The 64-bit digest XXH64

`digest` maps a byte string to a word.  All arithmetic is modulo `2 ^ 64`, with five fixed odd
multipliers (`prime1` to `prime5`).  Bytes are taken in
stripes of 32 by four independent lanes (`Lanes`); what is left over is folded in by eights, by a
four, and one by one (`absorbRest`); `avalanche` spreads every input bit over the result. -/
namespace ClassBindings.Digest.Xxh64

/-! ## Words -/

def prime1 : UInt64 := 0x9E3779B185EBCA87
def prime2 : UInt64 := 0xC2B2AE3D27D4EB4F
def prime3 : UInt64 := 0x165667B19E3779F9
def prime4 : UInt64 := 0x85EBCA77C2B2AE63
def prime5 : UInt64 := 0x27D4EB2F165667C5

/-- Rotation to the left, for amounts strictly between 0 and 64. -/
def rotate (word amount : UInt64) : UInt64 := word <<< amount ||| word >>> (64 - amount)

/-- Up to eight bytes as a word, least significant first. -/
def wordOfBytes (bytes : List UInt8) : UInt64 :=
  bytes.foldr (fun byte high => high <<< 8 ||| byte.toUInt64) 0

/-- One lane after one more word. -/
def mix (lane word : UInt64) : UInt64 := rotate (lane + word * prime2) 31 * prime1

/-! ## Stripes -/

/-- The four accumulators, each fed every fourth word. -/
structure Lanes where
  first : UInt64
  second : UInt64
  third : UInt64
  fourth : UInt64

/-- The lanes before any input. -/
def Lanes.start (seed : UInt64) : Lanes :=
  ⟨seed + prime1 + prime2, seed + prime2, seed, seed - prime1⟩

/-- The lanes after one stripe of 32 bytes. -/
def Lanes.absorb (lanes : Lanes) (stripe : List UInt8) : Lanes where
  first := mix lanes.first (wordOfBytes (stripe.take 8))
  second := mix lanes.second (wordOfBytes ((stripe.drop 8).take 8))
  third := mix lanes.third (wordOfBytes ((stripe.drop 16).take 8))
  fourth := mix lanes.fourth (wordOfBytes ((stripe.drop 24).take 8))

/-- The lanes after the first `count` stripes of `bytes`. -/
def Lanes.absorbStripes (lanes : Lanes) : (count : Nat) → (bytes : List UInt8) → Lanes
  | 0, _ => lanes
  | count + 1, bytes => (lanes.absorb (bytes.take 32)).absorbStripes count (bytes.drop 32)

/-- Folds one finished lane into the joint word. -/
def mergeLane (word lane : UInt64) : UInt64 := (word ^^^ mix 0 lane) * prime1 + prime4

/-- The four lanes as one word. -/
def Lanes.join (lanes : Lanes) : UInt64 :=
  [lanes.first, lanes.second, lanes.third, lanes.fourth].foldl mergeLane
    (rotate lanes.first 1 + rotate lanes.second 7 + rotate lanes.third 12 + rotate lanes.fourth 18)

/-! ## The rest, and the digest -/

/-- Folds in fewer than four bytes, one by one. -/
def absorbBytes (word : UInt64) (bytes : List UInt8) : UInt64 :=
  bytes.foldl (fun word byte => rotate (word ^^^ byte.toUInt64 * prime5) 11 * prime1) word

/-- Folds in fewer than 32 bytes: by eights, then a four if there is one, then one by one. -/
def absorbRest : (word : UInt64) → (bytes : List UInt8) → UInt64
  | word, a :: b :: c :: d :: e :: f :: g :: h :: rest =>
    absorbRest
      (rotate (word ^^^ mix 0 (wordOfBytes [a, b, c, d, e, f, g, h])) 27 * prime1 + prime4) rest
  | word, a :: b :: c :: d :: rest =>
    absorbBytes (rotate (word ^^^ wordOfBytes [a, b, c, d] * prime1) 23 * prime2 + prime3) rest
  | word, bytes => absorbBytes word bytes

/-- Spreads every bit of the word over all of it. -/
def avalanche (word : UInt64) : UInt64 :=
  let word := (word ^^^ word >>> 33) * prime2
  let word := (word ^^^ word >>> 29) * prime3
  word ^^^ word >>> 32

/-- The digest of a byte string under a seed. -/
def digest (seed : UInt64) (bytes : List UInt8) : UInt64 :=
  let stripes := bytes.length / 32
  let start :=
    if stripes = 0 then seed + prime5 else ((Lanes.start seed).absorbStripes stripes bytes).join
  avalanche (absorbRest (start + bytes.length.toUInt64) (bytes.drop (32 * stripes)))

end ClassBindings.Digest.Xxh64
