import Mathlib.Data.List.Forall2
import TableFlow.Proofs.Script.Pieces
import TableFlow.Proofs.Script.References

namespace TableFlow

namespace Reference

def text (r : Reference) : List Char := opening r.endpoint ++ r.name

def Item.text : Item → List Char
  | .char c => [c]
  | .reference r => r.text

/-- The reference can be read where it is written between these texts: it begins a word, and its
name goes on to the end of that word's ASCII part. -/
structure Stands (before : List Char) (r : Reference) (after : List Char) : Prop where
  boundary : ∀ c ∈ before.getLast?, Text.isWord c = false
  name : Text.IsIdentifier r.name
  ends : ∀ c ∈ after.head?, Text.isNameChar c = false

/-- A reference fits where it stands, and a single character fits where no reference begins. -/
def Item.Fits (before after : List Char) : Item → Prop
  | .char c => ∀ r rest, c :: after = r.text ++ rest → ¬ Stands before r rest
  | .reference r => Stands before r after

structure Marked (before text : List Char) (items : List Item) : Prop where
  whole : items.flatMap Item.text = text
  fits : ∀ front item back, items = front ++ item :: back →
    item.Fits (before ++ front.flatMap Item.text) (back.flatMap Item.text)

variable {before after text cs : List Char} {r : Reference} {c : Char} {item : Item}
  {items : List Item}

theorem startsWord_iff : Text.startsWord before.getLast? = true ↔
    ∀ c ∈ before.getLast?, Text.isWord c = false := by
  cases before.getLast? <;> simp [Text.startsWord]

theorem at?_eq_some_iff : at? before.getLast? cs = some (r, after) ↔
    cs = r.text ++ after ∧ Stands before r after := by
  constructor
  · intro h
    unfold at? at h
    split at h
    · rename_i endpoint n rest hqualifier
      split at h
      · rename_i hstart
        rw [Bool.and_eq_true] at hstart
        obtain ⟨rfl, rfl⟩ := Prod.mk.inj (Option.some.inj h)
        refine ⟨?_, startsWord_iff.mp hstart.2, ⟨n, _, rfl, hstart.1, ?_⟩, ?_⟩
        · rw [qualifier?_eq_some_iff.mp hqualifier, Reference.text, List.append_assoc,
            List.cons_append, List.takeWhile_append_dropWhile]
        · exact fun c hc => List.all_eq_true.mp List.all_takeWhile c hc
        · intro c hc
          have hstop := List.head?_dropWhile_not Text.isNameChar rest
          rw [Option.mem_def.mp hc] at hstop
          simpa using hstop
      · cases h
    · cases h
  · rintro ⟨rfl, hboundary, ⟨n, rest, hname, hn, hrest⟩, hends⟩
    obtain ⟨endpoint, name⟩ := r
    cases hname
    rw [Reference.text, List.append_assoc]
    exact at?_qualified endpoint (startsWord_iff.mpr hboundary) hn hrest hends

theorem Stands.getLast? (h : Stands before r after) :
    (before ++ r.text).getLast? = r.name.getLast? := by
  obtain ⟨n, rest, hname, _⟩ := h.name
  have hne : r.name ≠ [] := by simp [hname]
  rw [Reference.text, ← List.append_assoc, List.getLast?_append_of_ne_nil _ hne]

theorem marked_nil : Marked before text [] ↔ text = [] := by
  constructor
  · rintro ⟨rfl, -⟩
    rfl
  · rintro rfl
    exact ⟨rfl, fun front item back h => by simp at h⟩

theorem marked_cons : Marked before text (item :: items) ↔
    ∃ rest, text = item.text ++ rest ∧ item.Fits before rest ∧
      Marked (before ++ item.text) rest items := by
  constructor
  · rintro ⟨rfl, hfits⟩
    refine ⟨items.flatMap Item.text, rfl, by simpa using hfits [] item items rfl, rfl, ?_⟩
    rintro front next back rfl
    simpa using hfits (item :: front) next back rfl
  · rintro ⟨rest, rfl, hitem, rfl, hfits⟩
    refine ⟨rfl, ?_⟩
    rintro (_ | ⟨_, front⟩) next back h
    · cases h
      simpa using hitem
    · obtain ⟨rfl, rfl⟩ := List.cons.inj h
      simpa using hfits front next back rfl

theorem fits_char_iff : (Item.char c).Fits before after ↔
    at? before.getLast? (c :: after) = none := by
  rw [Option.eq_none_iff_forall_ne_some]
  constructor
  · rintro h ⟨r, rest⟩ hat
    obtain ⟨htext, hstands⟩ := at?_eq_some_iff.mp hat
    exact h r rest htext hstands
  · intro h r rest htext hstands
    exact h (r, rest) (at?_eq_some_iff.mpr ⟨htext, hstands⟩)

theorem marked_scan (before text : List Char) : Marked before text (scan before.getLast? text) := by
  generalize hlast : before.getLast? = last
  fun_induction scan last text generalizing before with
  | case1 => exact marked_nil.mpr rfl
  | case2 last c rest r after hat ih =>
      subst hlast
      obtain ⟨htext, hstands⟩ := at?_eq_some_iff.mp hat
      exact marked_cons.mpr ⟨after, htext, hstands, ih _ hstands.getLast?⟩
  | case3 last c rest hat ih =>
      subst hlast
      exact marked_cons.mpr ⟨rest, rfl, fits_char_iff.mpr hat, ih _ List.getLast?_concat⟩

theorem scan_of_marked (h : Marked before text items) : scan before.getLast? text = items := by
  induction items generalizing before text with
  | nil =>
      rw [marked_nil.mp h, scan]
  | cons item items ih =>
      obtain ⟨rest, rfl, hitem, hrest⟩ := marked_cons.mp h
      cases item with
      | char c =>
          have hscan := scan_of_none (fits_char_iff.mp hitem)
          rw [Item.text, List.singleton_append, hscan, ← ih hrest, Item.text, List.getLast?_concat]
      | reference r =>
          have hscan := scan_of_some (at?_eq_some_iff.mpr ⟨rfl, hitem⟩)
          rw [Item.text, hscan, ← ih hrest, Item.text, Stands.getLast? hitem]

end Reference

namespace SqlPiece

open Reference

/-- References are marked in code alone, and each piece of it is looked at by itself. -/
def Marked : SqlPiece → List Item → Prop
  | code t, items => Reference.Marked [] t items
  | literal t, items | comment t, items => items = t.map .char

theorem marked_iff {p : SqlPiece} {items : List Item} : p.Marked items ↔ items = p.items := by
  cases p with
  | code t =>
      constructor
      · exact fun h => (scan_of_marked h).symm
      · rintro rfl
        exact marked_scan [] t
  | literal t | comment t => exact Iff.rfl

theorem forall₂_marked_iff {pieces : List SqlPiece} {parts : List (List Item)} :
    List.Forall₂ Marked pieces parts ↔ parts = pieces.map SqlPiece.items := by
  constructor
  · intro h
    induction h with
    | nil => rfl
    | cons hp _ ih => rw [marked_iff.mp hp, ih, List.map_cons]
  · rintro rfl
    induction pieces with
    | nil => exact .nil
    | cons p pieces ih => exact .cons (marked_iff.mpr rfl) ih

theorem flatMap_text_items (p : SqlPiece) : p.items.flatMap Item.text = p.text := by
  cases p with
  | code t => exact (marked_scan [] t).whole
  | literal t | comment t => simp [items, Item.text, text, List.flatMap_map]

end SqlPiece
end TableFlow
