import Mathlib.Data.List.Basic
import TableFlow.Proofs.Scope.Template

namespace TableFlow

namespace Template

def braced (name : List Char) : List Char := '\x7b' :: (name ++ ['\x7d'])

/-- No placeholder stands in the text. -/
def Bare (text : List Char) : Prop :=
  ∀ before name after, Text.IsIdentifier name → text ≠ before ++ braced name ++ after

inductive Division
  | last (text : List Char)
  | hole (text name : List Char) (rest : Division)

namespace Division

def fill (put : List Char → List Char) : Division → List Char
  | last text => text
  | hole text name rest => text ++ put name ++ rest.fill put

def names : Division → List (List Char)
  | last _ => []
  | hole _ name rest => name :: rest.names

def texts : Division → List (List Char)
  | last text => [text]
  | hole text _ rest => text :: rest.texts

def items : Division → List Item
  | last text => text.map .char
  | hole text name rest => text.map .char ++ .hole name :: rest.items

def followedBy : Division → List Char → Division → Division
  | last text, name, back => hole text name back
  | hole text other rest, name, back => hole text other (rest.followedBy name back)

/-- The names stand in placeholders of the text, and there are no others. -/
structure Of (d : Division) (text : List Char) : Prop where
  whole : d.fill braced = text
  proper : ∀ name ∈ d.names, Text.IsIdentifier name
  bare : ∀ t ∈ d.texts, Bare t

end Division

variable {cs text before name after : List Char} {d e front back : Division}

theorem hole?_eq_some (h : hole? cs = some (name, after)) :
    Text.IsIdentifier name ∧ '\x7b' :: cs = braced name ++ after := by
  unfold hole? at h
  split at h
  · cases h
  · rename_i n rest
    split at h
    · rename_i hstart hstop
      cases h
      refine ⟨⟨n, _, rfl, hstart, fun c hc => List.all_eq_true.mp List.all_takeWhile c hc⟩, ?_⟩
      rw [braced, List.cons_append, List.append_assoc, List.cons_append,
        List.singleton_append, ← hstop,
        List.takeWhile_append_dropWhile]
    · cases h

theorem scan_braced (h : Text.IsIdentifier name) :
    scan (before ++ braced name ++ after) = scan before ++ .hole name :: scan after := by
  obtain ⟨n, rest, rfl, hn, hrest⟩ := h
  rw [List.append_assoc, braced, List.cons_append, List.append_assoc, List.singleton_append]
  exact scan_hole hn hrest

theorem scan_of_bare (h : Bare cs) : scan cs = cs.map .char := by
  induction cs using scan_induction with
  | nil => exact scan_nil
  | hole rest name after hsome ih =>
      obtain ⟨hname, hcs⟩ := hole?_eq_some hsome
      exact absurd hcs (h [] name after hname)
  | char c rest hnone ih =>
      rw [scan_of_none hnone, List.map_cons, ih]
      rintro before name after hname rfl
      exact h (c :: before) name after hname rfl

namespace Division

theorem Of.scan_eq (h : d.Of text) : scan text = d.items := by
  obtain ⟨hwhole, hproper, hbare⟩ := h
  induction d generalizing text with
  | last t =>
      rw [← hwhole]
      exact scan_of_bare (hbare t List.mem_cons_self)
  | hole t name rest ih =>
      rw [← hwhole, fill, scan_braced (hproper name List.mem_cons_self),
        scan_of_bare (hbare t List.mem_cons_self), items,
        ih rfl (fun other hmem => hproper other (List.mem_cons_of_mem _ hmem))
          (fun other hmem => hbare other (List.mem_cons_of_mem _ hmem))]

theorem hole_notMem_chars (name text : List Char) : Item.hole name ∉ text.map Item.char := by simp

theorem items_hole_inj {t t' : List Char} {name' : List Char} {rest rest' : List Item}
    (h : t.map Item.char ++ .hole name :: rest = t'.map Item.char ++ .hole name' :: rest') :
    t = t' ∧ name = name' ∧ rest = rest' := by
  induction t generalizing t' with
  | nil =>
      cases t' with
      | nil => simpa using h
      | cons c t' => cases h
  | cons c t ih =>
      cases t' with
      | nil => cases h
      | cons c' t' =>
          obtain ⟨hc, hrest⟩ := List.cons.inj h
          obtain ⟨rfl, hother⟩ := ih hrest
          exact ⟨by rw [Item.char.inj hc], hother⟩

theorem items_injective : Function.Injective items := by
  intro d
  induction d with
  | last t =>
      rintro (t' | ⟨t', name', rest'⟩) h
      · exact congrArg last (List.map_injective_iff.mpr (fun _ _ he => Item.char.inj he) h)
      · refine absurd ?_ (hole_notMem_chars name' t)
        rw [show t.map Item.char = _ from h]
        exact List.mem_append_right _ List.mem_cons_self
  | hole t name rest ih =>
      rintro (t' | ⟨t', name', rest'⟩) h
      · refine absurd ?_ (hole_notMem_chars name t')
        rw [show t'.map Item.char = _ from h.symm]
        exact List.mem_append_right _ List.mem_cons_self
      · obtain ⟨rfl, rfl, hrest⟩ := items_hole_inj h
        rw [ih hrest]

theorem Of.unique (hd : d.Of text) (he : e.Of text) : d = e :=
  items_injective (hd.scan_eq.symm.trans he.scan_eq)

theorem fill_followedBy (put : List Char → List Char) :
    (front.followedBy name back).fill put = front.fill put ++ put name ++ back.fill put := by
  induction front with
  | last t => rfl
  | hole t other rest ih => simp only [followedBy, fill, ih, List.append_assoc]

theorem names_followedBy (front : Division) (name : List Char) (back : Division) :
    (front.followedBy name back).names = front.names ++ name :: back.names := by
  induction front with
  | last t => rfl
  | hole t other rest ih => rw [followedBy, names, ih, names, List.cons_append]

theorem texts_followedBy (front : Division) (name : List Char) (back : Division) :
    (front.followedBy name back).texts = front.texts ++ back.texts := by
  induction front with
  | last t => rfl
  | hole t other rest ih => rw [followedBy, texts, ih, texts, List.cons_append]

theorem Of.followedBy (hfront : front.Of before) (hname : Text.IsIdentifier name)
    (hback : back.Of after) :
    (front.followedBy name back).Of (before ++ braced name ++ after) where
  whole := by rw [fill_followedBy, hfront.whole, hback.whole]
  proper other hmem := by
    rw [names_followedBy, List.mem_append, List.mem_cons] at hmem
    obtain hmem | rfl | hmem := hmem
    · exact hfront.proper other hmem
    · exact hname
    · exact hback.proper other hmem
  bare t hmem := by
    rw [texts_followedBy, List.mem_append] at hmem
    obtain hmem | hmem := hmem
    · exact hfront.bare t hmem
    · exact hback.bare t hmem

theorem exists_of (text : List Char) : ∃ d : Division, d.Of text := by
  by_cases hbare : Bare text
  · exact ⟨last text, rfl, nofun, by simpa [texts] using hbare⟩
  · rw [Bare] at hbare
    push Not at hbare
    obtain ⟨before, name, after, hname, htext⟩ := hbare
    obtain ⟨front, hfront⟩ := exists_of before
    obtain ⟨back, hback⟩ := exists_of after
    exact ⟨front.followedBy name back, htext ▸ hfront.followedBy hname hback⟩
  termination_by text.length
  decreasing_by
    all_goals
      simp only [htext, braced, List.length_append, List.length_cons]
      omega

/-- Wherever a placeholder stands, the text is divided there. -/
theorem Of.exists_followedBy (h : d.Of (before ++ braced name ++ after))
    (hname : Text.IsIdentifier name) :
    ∃ front back : Division, front.Of before ∧ back.Of after ∧ d = front.followedBy name back := by
  obtain ⟨front, hfront⟩ := exists_of before
  obtain ⟨back, hback⟩ := exists_of after
  exact ⟨front, back, hfront, hback, h.unique (hfront.followedBy hname hback)⟩

end Division

end Template

namespace Scope

open Template

def shown (s : Scope) (name : List Char) : List Char :=
  match s.get? (String.ofList name) with
  | some (.text value) => value.toList
  | some (.list values) => (",".intercalate values).toList
  | none => braced name

variable {s other : Scope} {d : Division}

theorem fill_hole (s : Scope) (name : List Char) :
    (Item.fill s (.hole name)).toList = s.shown name := by
  rw [Item.fill, shown]
  rcases s.get? (String.ofList name) with _ | ⟨value⟩ | ⟨values⟩
  · simp [braced]
  · rfl
  · rfl

theorem flatMap_fill_items (s : Scope) (d : Division) :
    d.items.flatMap (fun i => (Item.fill s i).toList) = d.fill s.shown := by
  have hchars (text : List Char) : (text.map Item.char).flatMap
      (fun i => (Item.fill s i).toList) = text := by
    rw [List.flatMap_map]
    simp [Item.fill]
  induction d with
  | last text => exact hchars text
  | hole text name rest ih =>
      rw [Division.items, List.flatMap_append, hchars, List.flatMap_cons, ih, fill_hole,
        Division.fill, List.append_assoc]

theorem filterMap_name_items (d : Division) :
    d.items.filterMap Item.name? = d.names.map String.ofList := by
  have hchars (text : List Char) : (text.map Item.char).filterMap Item.name? = [] := by
    simp [Item.name?]
  induction d with
  | last text => exact hchars text
  | hole text name rest ih =>
      rw [Division.items, List.filterMap_append, hchars, List.nil_append, List.filterMap_cons, ih]
      rfl

theorem fill_congr {put put' : List Char → List Char} (h : ∀ name ∈ d.names, put name = put' name) :
    d.fill put = d.fill put' := by
  induction d with
  | last text => rfl
  | hole text name rest ih =>
      rw [Division.fill, Division.fill, h name List.mem_cons_self, ih fun other hmem =>
        h other (List.mem_cons_of_mem _ hmem)]

/-- Every text divides in one way at the placeholders in it, and only what is bound to their
names counts: each gives way to the value, or stays as it is written and is reported. What is
put in is not looked into. -/
theorem interpolate_in_one_pass (text : String) :
    ∃ d : Division, d.Of text.toList ∧ (∀ e : Division, e.Of text.toList → e = d) ∧
      (∀ before name after, Text.IsIdentifier name → text.toList = before ++ braced name ++ after →
        ∃ front back : Division, front.Of before ∧ back.Of after ∧ d = front.followedBy name back) ∧
      ∀ s : Scope,
        (s.interpolate text).toList = d.fill s.shown ∧
        s.unresolved text = (d.names.map String.ofList).filter (fun name => (s.get? name).isNone) ∧
        ∀ other : Scope, (∀ name ∈ d.names.map String.ofList, other.get? name = s.get? name) →
          other.interpolate text = s.interpolate text ∧
            other.unresolved text = s.unresolved text := by
  obtain ⟨d, hd⟩ := Division.exists_of text.toList
  have hfill (s : Scope) : (s.interpolate text).toList = d.fill s.shown := by
    rw [interpolate, String.toList_join, hd.scan_eq, List.flatMap_map, flatMap_fill_items]
  have hnames (s : Scope) : s.unresolved text =
      (d.names.map String.ofList).filter (fun name => (s.get? name).isNone) := by
    rw [unresolved, hd.scan_eq, filterMap_name_items]
  refine ⟨d, hd, fun e he => he.unique hd, fun before name after hname htext => ?_,
    fun s => ⟨hfill s, hnames s, ?_⟩⟩
  · rw [htext] at hd
    exact hd.exists_followedBy hname
  · intro other hsame
    refine ⟨String.toList_injective ?_, ?_⟩
    · rw [hfill, hfill]
      refine fill_congr fun name hname => ?_
      rw [shown, shown, hsame _ (List.mem_map_of_mem hname)]
    · rw [hnames, hnames]
      exact List.filter_congr fun name hname => by rw [hsame name hname]

example :
    ((empty.set "a" (.text "\x7bb\x7d")).set "b" (.text "1")).interpolate
      "\x7b\x7ba\x7d\x7d \x7b1x\x7d" =
    "\x7b\x7bb\x7d\x7d \x7b1x\x7d" := by decide +kernel

end Scope
end TableFlow
