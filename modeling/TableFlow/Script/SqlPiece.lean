namespace TableFlow

inductive SqlPiece
  | code (text : List Char)
  /-- Single-quoted, with its quotes; a quote inside is written twice, and the last quote may be
  missing. -/
  | literal (text : List Char)
  | comment (text : List Char)
  deriving DecidableEq, Repr

namespace SqlPiece

def text : SqlPiece → List Char
  | .code t | .literal t | .comment t => t

def leavesCode : List Char → Bool
  | '\'' :: _ => true
  | '-' :: '-' :: _ => true
  | _ => false

def spanCode : List Char → List Char × List Char
  | [] => ([], [])
  | c :: rest =>
    if leavesCode (c :: rest) then ([], c :: rest)
    else let p := spanCode rest; (c :: p.1, p.2)

/-- What follows the opening quote of a literal, through its last quote, and the rest. -/
def spanLiteral : List Char → List Char × List Char
  | [] => ([], [])
  | '\'' :: '\'' :: rest => let p := spanLiteral rest; ('\'' :: '\'' :: p.1, p.2)
  | '\'' :: rest => (['\''], rest)
  | c :: rest => let p := spanLiteral rest; (c :: p.1, p.2)

theorem spanCode_append (cs : List Char) : (spanCode cs).1 ++ (spanCode cs).2 = cs := by
  induction cs with
  | nil => rfl
  | cons c rest ih => by_cases h : leavesCode (c :: rest) = true <;> simp [spanCode, h, ih]

theorem spanLiteral_append (cs : List Char) : (spanLiteral cs).1 ++ (spanLiteral cs).2 = cs := by
  fun_induction spanLiteral cs <;> simp_all +zetaDelta

theorem spanCode_length_le (cs : List Char) : (spanCode cs).2.length ≤ cs.length := by
  conv => rhs; rw [← spanCode_append cs]
  simp

theorem spanLiteral_length_le (cs : List Char) : (spanLiteral cs).2.length ≤ cs.length := by
  conv => rhs; rw [← spanLiteral_append cs]
  simp

def ofQuery : List Char → List SqlPiece
  | [] => []
  | '\'' :: rest =>
    .literal ('\'' :: (spanLiteral rest).1) :: ofQuery (spanLiteral rest).2
  | '-' :: '-' :: rest =>
    .comment ('-' :: '-' :: rest.takeWhile (· != '\n')) :: ofQuery (rest.dropWhile (· != '\n'))
  | c :: rest => .code (c :: (spanCode rest).1) :: ofQuery (spanCode rest).2
  termination_by cs => cs.length
  decreasing_by
    · have := spanLiteral_length_le rest; simp; omega
    · have := (List.dropWhile_sublist (· != '\n') (l := rest)).length_le; simp; omega
    · have := spanCode_length_le rest; simp; omega

end SqlPiece
end TableFlow
