/-!
Decoding bytes as UTF-8 where invalid input is allowed: each maximal prefix of a well-formed
sequence that cannot be completed, and each byte that cannot start one, becomes one
replacement character `U+FFFD`. Well-formed sequences exclude overlong forms, surrogates and
code points above `U+10FFFF`, so the second byte of a sequence after `E0`, `ED`, `F0` and `F4`
has a narrower range than `80`–`BF`.
-/
namespace ComponentSync.Text

def replacement : Char := '�'

def isContinuation (b : UInt8) : Bool := 0x80 ≤ b && b ≤ 0xBF

/-- Whether `b` may follow the lead byte `lead` of a three- or four-byte sequence. -/
def secondFits (lead b : UInt8) : Bool :=
  if lead == 0xE0 then 0xA0 ≤ b && b ≤ 0xBF
  else if lead == 0xED then 0x80 ≤ b && b ≤ 0x9F
  else if lead == 0xF0 then 0x90 ≤ b && b ≤ 0xBF
  else if lead == 0xF4 then 0x80 ≤ b && b ≤ 0x8F
  else isContinuation b

/-- The code point of a lead byte's payload followed by continuation payloads. -/
def joinPayload (lead : Nat) (rest : List UInt8) : Char :=
  Char.ofNat (rest.foldl (fun acc b => acc * 64 + (b.toNat % 64)) lead)

/-- The characters of a byte sequence, invalid parts replaced. -/
def decodeLossy : List UInt8 → List Char
  | [] => []
  | b :: rest =>
    if b < 0x80 then Char.ofNat b.toNat :: decodeLossy rest
    else if 0xC2 ≤ b && b ≤ 0xDF then
      match h1 : rest with
      | c :: rest' =>
        if isContinuation c then joinPayload (b.toNat % 32) [c] :: decodeLossy rest'
        else replacement :: decodeLossy rest
      | [] => [replacement]
    else if 0xE0 ≤ b && b ≤ 0xEF then
      match h1 : rest with
      | c :: rest' =>
        if secondFits b c then
          match h2 : rest' with
          | d :: rest'' =>
            if isContinuation d then joinPayload (b.toNat % 16) [c, d] :: decodeLossy rest''
            else replacement :: decodeLossy rest'
          | [] => [replacement]
        else replacement :: decodeLossy rest
      | [] => [replacement]
    else if 0xF0 ≤ b && b ≤ 0xF4 then
      match h1 : rest with
      | c :: rest' =>
        if secondFits b c then
          match h2 : rest' with
          | d :: rest'' =>
            if isContinuation d then
              match h3 : rest'' with
              | e :: rest''' =>
                if isContinuation e then joinPayload (b.toNat % 8) [c, d, e] :: decodeLossy rest'''
                else replacement :: decodeLossy rest''
              | [] => [replacement]
            else replacement :: decodeLossy rest'
          | [] => [replacement]
        else replacement :: decodeLossy rest
      | [] => [replacement]
    else replacement :: decodeLossy rest
termination_by bs => bs.length
decreasing_by all_goals (subst_vars; simp; try omega)

/-- The text of a byte sequence, invalid parts replaced. -/
def lossyText (bytes : ByteArray) : String :=
  String.ofList (decodeLossy bytes.toList)

end ComponentSync.Text
