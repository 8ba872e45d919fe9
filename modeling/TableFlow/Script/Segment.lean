import TableFlow.Script.Fault
import TableFlow.Text.Blank
import TableFlow.Text.Word

namespace TableFlow

structure Segment where
  kind : String
  fields : List String
  deriving DecidableEq, Repr

namespace Segment

def text (s : Segment) : String := ":".intercalate (s.kind :: s.fields)

def isGap (c : Char) : Bool := c == ' ' || c == '\t'

def skipGap (cs : List Char) : List Char := cs.dropWhile isGap

def atArrow : List Char → Bool
  | '=' :: '>' :: _ => true
  | _ => false

def spanQuery : List Char → List Char × List Char
  | [] => ([], [])
  | c :: rest =>
    if atArrow (c :: rest) then ([], c :: rest) else let p := spanQuery rest; (c :: p.1, p.2)

def endsField : List Char → Bool
  | [] => true
  | c :: rest => c == ':' || isGap c || atArrow (c :: rest)

def spanField : List Char → List Char × List Char
  | [] => ([], [])
  | c :: rest =>
    if endsField (c :: rest) then ([], c :: rest)
    else
      let p := spanField rest
      (c :: p.1, p.2)

theorem spanField_append (cs : List Char) : (spanField cs).1 ++ (spanField cs).2 = cs := by
  induction cs with
  | nil => rfl
  | cons c rest ih => by_cases h : endsField (c :: rest) = true <;> simp [spanField, h, ih]

theorem length_skipGap_le (cs : List Char) : (skipGap cs).length ≤ cs.length :=
  (List.dropWhile_sublist isGap).length_le

theorem length_spanField_le (cs : List Char) : (spanField cs).2.length ≤ cs.length := by
  conv => rhs; rw [← spanField_append cs]
  simp

/-- Where the grammar could not go on: what it could have taken, and the characters that stand
there. -/
structure Stop where
  expected : Expected
  rest : List Char

def readFields (cs : List Char) : Except Stop (List String × List Char) :=
  match _h : skipGap cs with
  | ':' :: rest =>
    let p := spanField (skipGap rest)
    if p.1.isEmpty then .error ⟨.field, p.2⟩
    else do
      let (fields, after) ← readFields p.2
      .ok (String.ofList p.1 :: fields, after)
  | _ => .ok ([], cs)
  termination_by cs.length
  decreasing_by
    have h₁ := length_skipGap_le cs
    have h₂ := length_skipGap_le rest
    have h₃ := length_spanField_le (skipGap rest)
    rw [_h] at h₁
    simp at h₁
    omega

theorem length_of_readFields {cs after : List Char} {fields : List String}
    (h : readFields cs = .ok (fields, after)) : after.length ≤ cs.length := by
  fun_induction readFields cs generalizing fields after with
  | case1 => simp at h
  | case2 cs rest hs p =>
      rename_i ih
      cases hr : readFields p.2 with
      | error e => simp [hr, bind, Except.bind] at h
      | ok r =>
          simp only [hr, bind, Except.bind, Except.ok.injEq, Prod.mk.injEq] at h
          have h₀ := ih hr
          have h₁ := length_skipGap_le cs
          have h₂ := length_skipGap_le rest
          have h₃ : p.2.length ≤ (skipGap rest).length := length_spanField_le _
          rw [hs, List.length_cons] at h₁
          rw [← h.2]
          omega
  | case3 cs => simp at h; simp [h.2]

def readSegments (cs : List Char) : Except Stop (List Segment) :=
  match _h : skipGap cs with
  | [] => .ok []
  | '=' :: '>' :: rest =>
    let start := skipGap rest
    let kind := start.takeWhile Text.isNameChar
    if kind.isEmpty then .error ⟨.kind, start⟩
    else
      match _hf : readFields (start.dropWhile Text.isNameChar) with
      | .error stop => .error stop
      | .ok (fields, after) => do
        let segments ← readSegments after
        .ok (⟨String.ofList kind, fields⟩ :: segments)
  | stuck => .error ⟨.endOfLine, stuck⟩
  termination_by cs.length
  decreasing_by
    have h₁ := length_skipGap_le cs
    have h₂ := length_skipGap_le rest
    have h₃ := length_of_readFields _hf
    have h₄ := (List.dropWhile_sublist Text.isNameChar (l := start)).length_le
    rw [_h] at h₁
    simp only [List.length_cons] at h₁
    simp only [start] at h₃ h₄
    omega

def column (text : List Char) (left : Nat) : Nat :=
  ((text.take (text.length - left)).reverse.takeWhile (· != '\n')).length + 1

/-- A line as its query and its segments, each after an arrow. Spaces and tabs may stand around
arrows, kinds, colons and fields. -/
def splitLine (text : List Char) : Except SyntaxFault (List Char × List Segment) :=
  let p := spanQuery text
  match readSegments p.2 with
  | .ok segments => .ok (Text.trim p.1, segments)
  | .error stop => .error (.unexpected stop.expected (column text stop.rest.length))

end Segment
end TableFlow
