/-!
# Reading bytes as text

What a command prints is read as UTF-8. Bytes that are no UTF-8 are replaced, one replacement
character for each longest start of a sequence that cannot be continued.
-/

namespace Rendezvous.Text

/-- The replacement character. -/
def replacement : Char := Char.ofNat 0xFFFD

/-- Whether a byte continues a sequence. -/
def isContinuation (b : UInt8) : Bool := 0x80 ≤ b && b ≤ 0xBF

/-- Whether a second byte may follow the first byte of a sequence of three or four. Some first bytes
admit fewer, so that no character has two encodings and none lies outside the range. -/
def mayFollow (first second : UInt8) : Bool :=
  if first = 0xE0 then 0xA0 ≤ second && second ≤ 0xBF
  else if first = 0xED then 0x80 ≤ second && second ≤ 0x9F
  else if first = 0xF0 then 0x90 ≤ second && second ≤ 0xBF
  else if first = 0xF4 then 0x80 ≤ second && second ≤ 0x8F
  else isContinuation second

/-- The payload of a byte that continues a sequence. -/
def payload (b : UInt8) : Nat := b.toNat % 0x40

/-- Read the character in front of a list of bytes: the character, and how many bytes after the
first it takes. -/
def decodeHead (first : UInt8) (rest : List UInt8) : Char × Nat :=
  if first < 0x80 then (Char.ofNat first.toNat, 0)
  else if 0xC2 ≤ first && first ≤ 0xDF then
    match rest with
    | b :: _ =>
      if isContinuation b then (Char.ofNat (first.toNat % 0x20 * 0x40 + payload b), 1)
      else (replacement, 0)
    | [] => (replacement, 0)
  else if 0xE0 ≤ first && first ≤ 0xEF then
    match rest with
    | b :: rest =>
      if mayFollow first b then
        match rest with
        | c :: _ =>
          if isContinuation c then
            (Char.ofNat ((first.toNat % 0x10 * 0x40 + payload b) * 0x40 + payload c), 2)
          else (replacement, 1)
        | [] => (replacement, 1)
      else (replacement, 0)
    | [] => (replacement, 0)
  else if 0xF0 ≤ first && first ≤ 0xF4 then
    match rest with
    | b :: rest =>
      if mayFollow first b then
        match rest with
        | c :: rest =>
          if isContinuation c then
            match rest with
            | d :: _ =>
              if isContinuation d then
                (Char.ofNat
                  (((first.toNat % 0x8 * 0x40 + payload b) * 0x40 + payload c) * 0x40 + payload d),
                  3)
              else (replacement, 2)
            | [] => (replacement, 2)
          else (replacement, 1)
        | [] => (replacement, 1)
      else (replacement, 0)
    | [] => (replacement, 0)
  else (replacement, 0)

/-- Read bytes as characters; the first `skip` of them belong to a character that has been read. -/
def decodeFrom (skip : Nat) : List UInt8 → List Char
  | [] => []
  | b :: rest =>
    match skip with
    | n + 1 => decodeFrom n rest
    | 0 => (decodeHead b rest).1 :: decodeFrom (decodeHead b rest).2 rest

/-- Read bytes as text. -/
def decodeLossy (bytes : List UInt8) : String :=
  String.ofList (decodeFrom 0 bytes)

end Rendezvous.Text
