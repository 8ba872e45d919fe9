namespace TableFlow.Utf8

/-- The bits that a first byte gives and the bounds of the bytes that must follow it; none for a
byte that begins no character. The bounds of the second byte leave out overlong forms,
surrogates and values past the last one. -/
def lead (b : Nat) : Option (Nat × List (Nat × Nat)) :=
  let any := (0x80, 0xBF)
  if b < 0x80 then some (b, [])
  else if b < 0xC2 then none
  else if b < 0xE0 then some (b - 0xC0, [any])
  else if b == 0xE0 then some (0, [(0xA0, 0xBF), any])
  else if b == 0xED then some (13, [(0x80, 0x9F), any])
  else if b < 0xF0 then some (b - 0xE0, [any, any])
  else if b == 0xF0 then some (0, [(0x90, 0xBF), any, any])
  else if b < 0xF4 then some (b - 0xF0, [any, any, any])
  else if b == 0xF4 then some (4, [(0x80, 0x8F), any, any])
  else none

def follow (value : Nat) : List (Nat × Nat) → List UInt8 → Option Nat × List UInt8
  | [], rest => (some value, rest)
  | (low, high) :: more, b :: rest =>
    if low ≤ b.toNat && b.toNat ≤ high then follow (value * 64 + b.toNat % 64) more rest
    else (none, b :: rest)
  | _ :: _, [] => (none, [])

theorem length_follow_le (value : Nat) (bounds : List (Nat × Nat)) (bytes : List UInt8) :
    (follow value bounds bytes).2.length ≤ bytes.length := by
  fun_induction follow value bounds bytes with
  | case1 | case3 | case4 => exact Nat.le_refl _
  | case2 =>
      rw [List.length_cons]
      omega

def replacement : Char := '\uFFFD'

def decodeChars (bytes : List UInt8) : List Char :=
  match bytes with
  | [] => []
  | b :: rest =>
    match lead b.toNat with
    | none => replacement :: decodeChars rest
    | some (value, bounds) =>
      let r := follow value bounds rest
      (match r.1 with
        | some n => Char.ofNat n
        | none => replacement) :: decodeChars r.2
  termination_by bytes.length
  decreasing_by
    · simp
    · have := length_follow_le value bounds rest
      simp only [List.length_cons]
      omega

/-- Bytes that are no UTF-8 become replacement characters, one for each longest run that begins
a character and does not finish it. -/
def decode (bytes : List UInt8) : String := String.ofList (decodeChars bytes)

def decode? (bytes : List UInt8) : Option String := String.fromUTF8? ⟨bytes.toArray⟩

end TableFlow.Utf8
