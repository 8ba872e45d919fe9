import TableFlow.Text.Search

namespace TableFlow.Xml

def escapeChar (c : Char) : List Char :=
  match c with
  | '&' => ['&', 'a', 'm', 'p', ';']
  | '<' => ['&', 'l', 't', ';']
  | '>' => ['&', 'g', 't', ';']
  | '"' => ['&', 'q', 'u', 'o', 't', ';']
  | '\'' => ['&', 'a', 'p', 'o', 's', ';']
  | c => [c]

def escape (cs : List Char) : List Char := cs.flatMap escapeChar

/-- The text of a piece of a document. The ampersand comes last, so that the one it leaves opens
no entity. -/
def unescape (cs : List Char) : List Char :=
  let angles := Text.replace '&' ['g', 't', ';'] '>' (Text.replace '&' ['l', 't', ';'] '<' cs)
  let quotes :=
    Text.replace '&' ['a', 'p', 'o', 's', ';'] '\''
      (Text.replace '&' ['q', 'u', 'o', 't', ';'] '"' angles)
  Text.replace '&' ['a', 'm', 'p', ';'] '&' quotes

def opening (tag : String) : List Char := '<' :: tag.toList ++ ['>']

def closing (tag : String) : List Char := '<' :: '/' :: tag.toList ++ ['>']

def element (tag text : String) : String :=
  String.ofList (opening tag ++ escape text.toList ++ closing tag)

/-- The texts of the elements with a tag, in document order; an element that is not closed ends
the search. -/
def textsIn (tag : String) (document : List Char) : List String :=
  match _open : Text.cut (opening tag) document with
  | none => []
  | some (_, inner) =>
    match _close : Text.cut (closing tag) inner with
    | none => []
    | some (text, rest) => String.ofList (unescape text) :: textsIn tag rest
  termination_by document.length
  decreasing_by
    have := Text.length_of_cut _open
    have := Text.length_of_cut _close
    simp [opening, closing] at *
    omega

def texts (tag document : String) : List String := textsIn tag document.toList

def text? (tag document : String) : Option String := (texts tag document).head?

end TableFlow.Xml
