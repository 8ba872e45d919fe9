import TableFlow.Proofs.Script.Names
import TableFlow.Proofs.Script.Sources

namespace TableFlow

namespace Reference

def strip (before : Option Char) (cs : List Char) : List Char := (scan before cs).flatMap Item.bare

variable {before : Option Char} {cs after rest tail name : List Char} {c n x y : Char}
  {r : Reference}

theorem exists_stands (h : at? before cs = some (r, after)) :
    cs = r.text ++ after ∧ Stands before.toList r after := by
  refine at?_eq_some_iff.mp ?_
  cases before <;> exact h

theorem exists_at?_iff : (∃ p, at? before cs = some p) ↔ Text.startsWord before = true ∧
    ∃ endpoint n rest, cs = opening endpoint ++ n :: rest ∧ Text.isNameStart n = true := by
  constructor
  · rintro ⟨⟨r, after⟩, hat⟩
    obtain ⟨rfl, hboundary, ⟨n, rest, hname, hn, _⟩, _⟩ := exists_stands hat
    refine ⟨?_, r.endpoint, n, rest ++ after, by simp [Reference.text, hname], hn⟩
    cases before <;> exact startsWord_iff.mpr hboundary
  · rintro ⟨hbefore, endpoint, n, rest, rfl, hn⟩
    rw [at?, qualifier?_eq_some_iff.mpr rfl]
    simp [hbefore, hn]

theorem opening_eq (endpoint : Option Endpoint) :
    ∃ a x y, opening endpoint = [a, x, y, '.'] ∧ Text.isNameChar a = true ∧
    Text.isNameChar x = true ∧ Text.isNameChar y = true := by
  rcases endpoint with _ | _ | _
  · exact ⟨'c', 's', 'v', rfl, rfl, rfl, rfl⟩
  · exact ⟨'s', 'r', 'c', rfl, rfl, rfl, rfl⟩
  · exact ⟨'d', 's', 't', rfl, rfl, rfl, rfl⟩

theorem strip_of_none (h : at? before (c :: cs) = none) :
    strip before (c :: cs) = c :: strip (some c) cs := by
  rw [strip, scan_of_none h]
  rfl

theorem strip_of_some (h : at? before cs = some (r, after)) :
    strip before cs = r.name ++ strip r.name.getLast? after := by
  rw [strip, scan_of_some h]
  rfl

theorem startsWord_of_isNameChar (h : Text.isNameChar c = true) :
    Text.startsWord (some c) = false := by
  simp [Text.startsWord, Text.isWord_of_isNameChar h]

theorem strip_cases (h : strip before cs = c :: tail) :
    (∃ rest, cs = c :: rest ∧ tail = strip (some c) rest) ∨
    Text.startsWord before = true ∧ Text.isNameStart c = true ∧
      ∃ first ∈ cs.head?, Text.isNameStart first = true := by
  cases cs with
  | nil =>
      rw [strip, scan] at h
      cases h
  | cons first cs =>
      cases hat : at? before (first :: cs) with
      | none =>
          rw [strip_of_none hat] at h
          obtain ⟨rfl, rfl⟩ := List.cons.inj h
          exact .inl ⟨cs, rfl, rfl⟩
      | some p =>
          obtain ⟨r, after⟩ := p
          obtain ⟨hstarts, endpoint, m, rest, hcs, _⟩ := exists_at?_iff.mp ⟨_, hat⟩
          obtain ⟨n, more, hname, hn, _⟩ := (exists_stands hat).2.name
          rw [strip_of_some hat, hname] at h
          obtain ⟨rfl, _⟩ := List.cons.inj h
          refine .inr ⟨hstarts, hn, first, rfl, ?_⟩
          rcases endpoint with _ | _ | _ <;> cases hcs <;> rfl

/-- Inside a word the stripped text goes on as the text does, and so it does with a character
that opens no name. -/
theorem strip_cons (h : strip before cs = c :: tail)
    (hinside : Text.startsWord before = false ∨ Text.isNameStart c = false) :
    ∃ rest, cs = c :: rest ∧ tail = strip (some c) rest := by
  obtain hsame | ⟨hstarts, hc, _⟩ := strip_cases h
  · exact hsame
  · rcases hinside with hinside | hinside
    · rw [hinside] at hstarts
      cases hstarts
    · rw [hinside] at hc
      cases hc

theorem at?_strip (h : at? before (c :: cs) = none) :
    at? before (c :: strip (some c) cs) = none := by
  rw [Option.eq_none_iff_forall_ne_some] at h ⊢
  intro p hp
  obtain ⟨hstarts, endpoint, n, tail, hcs, hn⟩ := exists_at?_iff.mp ⟨p, hp⟩
  obtain ⟨a, x, y, hopening, ha, hx, hy⟩ := opening_eq endpoint
  rw [hopening] at hcs
  obtain ⟨rfl, hstrip⟩ := List.cons.inj hcs
  obtain ⟨rest, rfl, hsecond⟩ := strip_cons hstrip (.inl (startsWord_of_isNameChar ha))
  obtain ⟨rest, rfl, hthird⟩ := strip_cons hsecond.symm (.inl (startsWord_of_isNameChar hx))
  obtain ⟨rest, rfl, hname⟩ := strip_cons hthird.symm (.inr rfl)
  obtain ⟨m, hm, hstart⟩ : ∃ m ∈ rest.head?, Text.isNameStart m = true := by
    obtain ⟨rest, rfl, _⟩ | ⟨_, _, hfirst⟩ := strip_cases hname.symm
    · exact ⟨n, rfl, hn⟩
    · exact hfirst
  obtain ⟨rest, rfl⟩ := List.head?_eq_some_iff.mp hm
  obtain ⟨p, hp⟩ := exists_at?_iff.mpr ⟨hstarts, endpoint, m, rest, by rw [hopening], hstart⟩
  exact h p hp

def IsQualifier (name : List Char) : Prop := ∃ endpoint, opening endpoint = name ++ ['.']

theorem not_isQualifier {name : List Char} (h : String.ofList name ∉ ["csv", "src", "dst"]) :
    ¬ IsQualifier name := by
  rintro ⟨endpoint, hopening⟩
  refine h ?_
  rcases endpoint with _ | _ | _
  · obtain rfl : ['c', 's', 'v'] = name := List.append_cancel_right hopening
    simp
  · obtain rfl : ['s', 'r', 'c'] = name := List.append_cancel_right hopening
    simp
  · obtain rfl : ['d', 's', 't'] = name := List.append_cancel_right hopening
    simp

theorem scan_word (hc : Text.isNameChar c = true) (hword : ∀ d ∈ name, Text.isNameChar d = true)
    (rest : List Char) :
    scan (some c) (name ++ rest) = name.map .char ++ scan (c :: name).getLast? rest := by
  induction name generalizing c with
  | nil => rfl
  | cons d name ih =>
      have hnone : at? (some c) (d :: (name ++ rest)) = none := by
        rw [Option.eq_none_iff_forall_ne_some]
        intro p hp
        have hstarts := (exists_at?_iff.mp ⟨p, hp⟩).1
        rw [startsWord_of_isNameChar hc] at hstarts
        cases hstarts
      obtain ⟨hd, hname⟩ := List.forall_mem_cons.mp hword
      rw [List.cons_append, scan_of_none hnone, ih hd hname, List.getLast?_cons_cons]
      rfl

theorem scan_name (hname : Text.IsIdentifier name) (hqualifier : ¬ IsQualifier name)
    (hrest : ∀ c ∈ rest.head?, Text.isNameChar c = false) :
    scan before (name ++ rest) = name.map .char ++ scan name.getLast? rest := by
  have hchars := hname.isNameChar
  obtain ⟨n, more, rfl, _⟩ := hname
  obtain ⟨hn, hmore⟩ := List.forall_mem_cons.mp hchars
  have hnone : at? before (n :: (more ++ rest)) = none := by
    rw [Option.eq_none_iff_forall_ne_some]
    intro p hp
    obtain ⟨_, endpoint, m, tail, hcs, _⟩ := exists_at?_iff.mp ⟨p, hp⟩
    obtain ⟨a, x, y, hopening, ha, hx, hy⟩ := opening_eq endpoint
    refine hqualifier ⟨endpoint, ?_⟩
    -- The name and the qualifier are both the name characters that the text begins with.
    have hletters : ∀ c ∈ [a, x, y], Text.isNameChar c = true := by simp [ha, hx, hy]
    have hdot : ∀ c ∈ ('.' :: m :: tail).head?, Text.isNameChar c = false := by
      rintro c ⟨⟩
      rfl
    have hleft := (Text.nameChars_name hchars hrest).1
    have hright := (Text.nameChars_name hletters hdot).1
    rw [hopening] at hcs
    rw [List.cons_append, hcs] at hleft
    rw [hopening, ← hleft]
    exact congrArg (· ++ ['.']) hright.symm
  rw [List.cons_append, scan_of_none hnone, scan_word hn hmore]
  rfl

/-- A stripped text has no references, unless one of the names is a qualifier itself. -/
theorem scan_strip (h : ∀ r, .reference r ∈ scan before cs → ¬ IsQualifier r.name) :
    scan before (strip before cs) = (strip before cs).map .char := by
  fun_induction scan before cs with
  | case1 before => simp [strip, scan]
  | case2 before c rest r after hat ih =>
      have hqualifier := h r List.mem_cons_self
      have hrest := ih fun r' hr' => h r' (List.mem_cons_of_mem _ hr')
      have hstands := (exists_stands hat).2
      have hends : ∀ c ∈ (strip r.name.getLast? after).head?, Text.isNameChar c = false := by
        intro c hc
        obtain ⟨tail, htail⟩ := List.head?_eq_some_iff.mp hc
        obtain ⟨rest, rfl, _⟩ | ⟨_, _, first, hfirst, hstart⟩ := strip_cases htail
        · exact hstands.ends c rfl
        · have hfalse := hstands.ends first hfirst
          rw [Text.isNameChar_of_isNameStart hstart] at hfalse
          cases hfalse
      rw [strip_of_some hat, scan_name hstands.name hqualifier hends, hrest, List.map_append]
  | case3 before c rest hat ih =>
      have hrest := ih fun r hr => h r (List.mem_cons_of_mem _ hr)
      rw [strip_of_none hat, scan_of_none (at?_strip hat), hrest]
      rfl

def BeginAlike (cs cs' : List Char) : Prop :=
  cs'.head? = cs.head? ∨ (∃ c ∈ cs.head?, Text.isNameStart c = true) ∧
    ∃ c ∈ cs'.head?, Text.isNameStart c = true

theorem strip_eq_nil_iff : strip before cs = [] ↔ cs = [] := by
  cases cs with
  | nil => simp [strip, scan]
  | cons c cs =>
      refine iff_of_false (fun hnil => ?_) (List.cons_ne_nil c cs)
      cases hat : at? before (c :: cs) with
      | none =>
          rw [strip_of_none hat] at hnil
          cases hnil
      | some p =>
          obtain ⟨n, rest, hname, _⟩ := (exists_stands hat).2.name
          rw [strip_of_some hat, hname] at hnil
          cases hnil

theorem beginAlike_strip (before : Option Char) (cs : List Char) :
    BeginAlike cs (strip before cs) := by
  cases hstrip : strip before cs with
  | nil =>
      rw [strip_eq_nil_iff.mp hstrip]
      exact .inl rfl
  | cons c tail =>
      obtain ⟨rest, rfl, _⟩ | ⟨_, hc, hfirst⟩ := strip_cases hstrip
      · exact .inl rfl
      · exact .inr ⟨hfirst, c, rfl, hc⟩

variable {cs' t t' rest' : List Char}

theorem BeginAlike.head?_iff (h : BeginAlike cs cs') (hc : Text.isNameStart c = false) :
    cs'.head? = some c ↔ cs.head? = some c := by
  obtain hsame | ⟨⟨d, hd, hstart⟩, d', hd', hstart'⟩ := h
  · rw [hsame]
  · refine iff_of_false (fun he => ?_) fun he => ?_
    · rw [Option.mem_def.mp hd', Option.some.injEq] at he
      rw [← he, hstart'] at hc
      cases hc
    · rw [Option.mem_def.mp hd, Option.some.injEq] at he
      rw [← he, hstart] at hc
      cases hc

theorem BeginAlike.eq_nil_iff (h : BeginAlike cs cs') : cs' = [] ↔ cs = [] := by
  rw [← List.head?_eq_none_iff, ← List.head?_eq_none_iff]
  obtain hsame | ⟨⟨d, hd, _⟩, d', hd', _⟩ := h
  · rw [hsame]
  · simp [Option.mem_def.mp hd, Option.mem_def.mp hd']

theorem BeginAlike.append (h : BeginAlike t t') (hrest : BeginAlike rest rest') :
    BeginAlike (t ++ rest) (t' ++ rest') := by
  cases t with
  | nil =>
      rw [h.eq_nil_iff.mpr rfl]
      exact hrest
  | cons c t =>
      have hne : t' ≠ [] := fun hnil => by simpa using h.eq_nil_iff.mp hnil
      rw [BeginAlike, List.head?_append_of_ne_nil _ hne,
        List.head?_append_of_ne_nil _ (List.cons_ne_nil c t)]
      exact h

end Reference

namespace SqlPiece

open Reference

def stripped : SqlPiece → SqlPiece
  | code t => .code (Reference.strip none t)
  | literal t => .literal t
  | comment t => .comment t

theorem text_stripped (p : SqlPiece) : p.stripped.text = p.bare := by
  cases p with
  | code t => rfl
  | literal t | comment t => exact (bare_of_not_code rfl).symm

theorem isCode_stripped (p : SqlPiece) : p.stripped.isCode = p.isCode := by
  cases p <;> rfl

theorem plain_append_name {name t rest : List Char} (hname : ∀ c ∈ name, Text.isNameChar c = true)
    (h : Plain t rest) :
    Plain (name ++ t) rest := by
  induction name with
  | nil => exact h
  | cons c name ih =>
      obtain ⟨hc, hmore⟩ := List.forall_mem_cons.mp hname
      refine plain_cons.mpr ⟨(leavesCode_eq_false_iff _ _).mpr ⟨?_, ?_⟩, ih hmore⟩ <;>
        rintro rfl <;> cases hc

theorem plain_of_append {t t' rest : List Char} (h : Plain (t ++ t') rest) : Plain t' rest := by
  induction t with
  | nil => exact h
  | cons c t ih => exact ih (plain_cons.mp h).2

variable {p : SqlPiece} {pieces : List SqlPiece} {rest rest' : List Char}

/-- Without its qualifiers code is still code, whatever begins as the text that followed it. -/
theorem plain_strip {before : Option Char} {t : List Char} (h : Plain t rest)
    (hrest : BeginAlike rest rest') :
    Plain (Reference.strip before t) rest' := by
  fun_induction Reference.scan before t with
  | case1 before => simpa [Reference.strip, Reference.scan] using plain_nil rest'
  | case2 before c t r after hat ih =>
      obtain ⟨hcs, hstands⟩ := exists_stands hat
      rw [hcs] at h
      rw [strip_of_some hat]
      exact plain_append_name hstands.name.isNameChar (ih (plain_of_append h))
  | case3 before c t hat ih =>
      obtain ⟨hstays, ht⟩ := plain_cons.mp h
      obtain ⟨hquote, hhyphen⟩ := (leavesCode_eq_false_iff _ _).mp hstays
      rw [strip_of_none hat]
      refine plain_cons.mpr ⟨(leavesCode_eq_false_iff _ _).mpr ⟨hquote, fun hc => ?_⟩, ih ht⟩
      rw [ne_eq, ((beginAlike_strip (some c) t).append hrest).head?_iff rfl]
      exact hhyphen hc

theorem Ends.stripped (h : p.Ends rest) (hrest : BeginAlike rest rest') :
    p.stripped.Ends rest' := by
  cases h with
  | code hne hplain => exact .code (mt strip_eq_nil_iff.mp hne) (plain_strip hplain hrest)
  | terminated hbody hquote => exact .terminated hbody (mt (hrest.head?_iff rfl).mp hquote)
  | unterminated hbody =>
      obtain rfl := hrest.eq_nil_iff.mpr rfl
      exact .unterminated hbody
  | comment hbody hend =>
      exact .comment hbody (hend.imp hrest.eq_nil_iff.mpr (hrest.head?_iff rfl).mpr)

theorem beginAlike_text (p : SqlPiece) : BeginAlike p.text p.stripped.text := by
  cases p with
  | code t => exact beginAlike_strip none t
  | literal t | comment t => exact .inl rfl

theorem Divided.stripped (h : Divided pieces) :
    BeginAlike (pieces.flatMap text) ((pieces.map SqlPiece.stripped).flatMap text) ∧
      Divided (pieces.map SqlPiece.stripped) := by
  induction h with
  | nil => exact ⟨.inl rfl, .nil⟩
  | @cons p back hp hcode _ ih =>
      refine ⟨(beginAlike_text p).append ih.1,
        .cons (hp.stripped ih.1) (fun hc next hnext => ?_) ih.2⟩
      rw [isCode_stripped] at hc
      rw [List.head?_map, Option.mem_def, Option.map_eq_some_iff] at hnext
      obtain ⟨next, hnext, rfl⟩ := hnext
      rw [isCode_stripped]
      exact hcode hc next hnext

theorem ofQuery_strip (query : String) : ofQuery (Source.strip query) =
    (ofQuery query.toList).map stripped := by
  have hstrip : Source.strip query = ((ofQuery query.toList).map stripped).flatMap text := by
    rw [Source.strip, List.flatMap_map]
    simp only [text_stripped]
  rw [hstrip]
  exact ofQuery_of_divided (divided_ofQuery query.toList).stripped.2

theorem items_stripped (h : ∀ r ∈ p.references, ¬ IsQualifier r.name) :
    p.stripped.items = p.stripped.text.map .char := by
  cases p with
  | code t => exact scan_strip fun r hr => h r (List.mem_filterMap.mpr ⟨_, hr, rfl⟩)
  | literal t | comment t => rfl

end SqlPiece

namespace Source

open SqlPiece

/-- Without its qualifiers a query reads nothing, divides into the same literals and comments,
and is left as it is. Only a name that is a qualifier itself could become a reference. -/
theorem stripped_query_is_final {query stripped : String} {sinks : List Sink}
    {source : Option Source} (h : infer query sinks = .ok (stripped, source))
    (hnames : ∀ r ∈ (ofQuery query.toList).flatMap references,
      String.ofList r.name ∉ ["csv", "src", "dst"]) :
    ofQuery stripped.toList = (ofQuery query.toList).map SqlPiece.stripped ∧
      (ofQuery stripped.toList).flatMap references = [] ∧
        infer stripped [] = .ok (stripped, none) := by
  obtain ⟨-, hstripped⟩ := infer_eq_ok_iff.mp h
  have hpieces : ofQuery stripped.toList = (ofQuery query.toList).map SqlPiece.stripped := by
    rw [hstripped, ofQuery_strip]
  have hitems : ∀ p ∈ ofQuery query.toList, p.stripped.items = p.stripped.text.map .char :=
    fun p hp =>
    items_stripped fun r hr => Reference.not_isQualifier
      (hnames r (List.mem_flatMap.mpr ⟨p, hp, hr⟩))
  have hrefs : (ofQuery stripped.toList).flatMap references = [] := by
    rw [hpieces, List.flatMap_map, List.flatMap_eq_nil_iff]
    intro p hp
    simp [references, hitems p hp, Reference.Item.reference?]
  have hstrip : strip stripped = stripped.toList := by
    have hbare : ∀ p ∈ ofQuery query.toList, p.stripped.bare = p.stripped.text := fun p hp => by
      simp [bare, hitems p hp, Reference.Item.bare, List.flatMap_map]
    rw [strip, hpieces, List.flatMap_map, List.flatMap_congr hbare, ← List.flatMap_map, ← hpieces,
      flatMap_text_ofQuery]
  refine ⟨hpieces, hrefs, infer_eq_ok_iff.mpr ⟨?_, hstrip.symm⟩⟩
  rw [hrefs]
  rfl

def nested : String := "SELECT a FROM csv.acsv.x JOIN csv.u ON 'it''s csv.t' -- src.v"

def nestedStripped : String := "SELECT a FROM acsv.x JOIN u ON 'it''s csv.t' -- src.v"

theorem stripped_query_is_final_nested :
    infer nested [] = .ok (nestedStripped, some (.localTables ["acsv", "u"])) ∧
      (ofQuery nestedStripped.toList).flatMap references = [] ∧
        infer nestedStripped [] = .ok (nestedStripped, none) := by
  have hinfer : infer nested [] = .ok (nestedStripped, some (.localTables ["acsv", "u"])) :=
    eq_ok_of_toOption (by decide +kernel)
  have hnames : ∀ r ∈ (ofQuery nested.toList).flatMap references,
      String.ofList r.name ∉ ["csv", "src", "dst"] := by
    decide +kernel
  obtain ⟨_, hrefs, hfinal⟩ := stripped_query_is_final hinfer hnames
  exact ⟨hinfer, hrefs, hfinal⟩

example : (infer "FROM csv.csv.t" []).toOption = some ("FROM csv.t", some (.localTables ["csv"])) ∧
    (infer "FROM csv.t" []).toOption = some ("FROM t", some (.localTables ["t"])) := by
      decide +kernel

end Source
end TableFlow
