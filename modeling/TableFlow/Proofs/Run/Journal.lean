import TableFlow.Proofs.Run.Performance
import TableFlow.Proofs.Script.Names
import TableFlow.Proofs.Store.Tables

namespace TableFlow

namespace Run

def Event.stored? (name : String) : Event → Option (Table × Bool)
  | .store other data cached (.ok _) => if other = name then some (data, cached) else none
  | _ => none

def lastStored (events : List Event) (name : String) : Option (Table × Bool) :=
  events.reverse.findSome? (Event.stored? name)

/-- What events make of a table store. The system has refused none of them. -/
inductive Journal : TableStore → List Event → TableStore → Prop
  | done (s) : Journal s [] s
  | request {s endpoint request answer events t} : Journal s events t →
      Journal s (.request endpoint request s.files answer :: events) t
  | load {s name answer events t} : (Act.runFrom s (TableStore.load name)).1 = answer →
      Journal s events t →
      Journal s (.load name answer :: events) t
  | store {s name data cached answer u events t} : TableStore.Stores s name data cached answer u →
      (∀ e, answer ≠ .error (.system e)) → Journal u events t →
      Journal s (.store name data cached answer :: events) t
  | bind {s name value events t} : Journal s events t → Journal s (.bind name value :: events) t

def Named (last : String → Option (Table × Bool)) : Prop :=
  ∀ name p, last name = some p → Directive.isName name = true

/-- A table store after a journal that has stored `last` and nothing else. -/
structure Follows (s : TableStore) (last : String → Option (Table × Bool)) (t : TableStore) :
    Prop where
  dir : t.dir = s.dir
  entry : ∀ name, t.entry? name = ((last name).map fun p => ⟨p.2, true⟩).or (s.entry? name)
  listed : ∀ name, t.listed.contains name = ((last name).map Prod.snd).getD (s.listed.contains name)
  columns : ∀ name p, last name = some p → p.1.fields ≠ []
  file : Named last → ∀ name, Directive.isName name = true →
    t.files.file? (TableStore.tablePath s.dir name).resolve =
      ((last name).map fun p => .text p.1.toCsv).or
        (s.files.file? (TableStore.tablePath s.dir name).resolve)
  manifest : Named last → s.IsCurrent → t.IsCurrent

variable {s t u : TableStore} {events before after : List Event} {event : Event} {name : String}

theorem lastStored_append (before after : List Event) (name : String) :
    lastStored (before ++ after) name = (lastStored after name).or (lastStored before name) := by
  rw [lastStored, List.reverse_append, List.findSome?_append]
  rfl

theorem lastStored_cons (event : Event) (events : List Event) (name : String) :
    lastStored (event :: events) name = (lastStored events name).or (event.stored? name) := by
  rw [← List.singleton_append, lastStored_append]
  congr 1
  rw [lastStored, List.reverse_singleton, List.findSome?_singleton]

theorem Journal.append (hbefore : Journal s before u) (hafter : Journal u after t) :
    Journal s (before ++ after) t := by
  induction hbefore with
  | done => exact hafter
  | request _ ih => exact .request (ih hafter)
  | load ha _ ih => exact .load ha (ih hafter)
  | store hs he _ ih => exact .store hs he (ih hafter)
  | bind _ ih => exact .bind (ih hafter)

theorem mem_of_lastStored {p : Table × Bool} (h : lastStored events name = some p) :
    ∃ path, .store name p.1 p.2 (.ok path) ∈ events := by
  obtain ⟨event, he, hp⟩ := List.exists_of_findSome?_eq_some h
  rw [List.mem_reverse] at he
  unfold Event.stored? at hp
  split at hp
  · split at hp
    · rename_i hname
      cases hp
      exact ⟨_, hname ▸ he⟩
    · cases hp
  · cases hp

theorem Follows.refl (s : TableStore) : Follows s (fun _ => none) s :=
  ⟨rfl, fun _ => rfl, fun _ => rfl, nofun, fun _ _ _ => rfl, fun _ => id⟩

theorem Named.of_or {first second : String → Option (Table × Bool)}
    (h : Named fun name => (second name).or (first name)) : Named first ∧ Named second := by
  have hor (name : String) (p : Table × Bool) (hp : (second name).or (first name) = some p) :
      Directive.isName name = true :=
    h name p hp
  refine ⟨fun name p hp => ?_, fun name p hp => ?_⟩
  · cases hsecond : second name with
    | none => exact hor name p (by rw [hsecond, hp]; rfl)
    | some q => exact hor name q (by rw [hsecond]; rfl)
  · exact hor name p (by rw [hp]; rfl)

theorem Follows.trans {first second : String → Option (Table × Bool)} (h : Follows s first u)
    (h' : Follows u second t) :
    Follows s (fun name => (second name).or (first name)) t where
  dir := h'.dir.trans h.dir
  entry name := by
    rw [h'.entry, h.entry]
    cases second name <;> rfl
  listed name := by
    rw [h'.listed, h.listed]
    cases second name <;> rfl
  columns name p hp := by
    cases hsecond : second name with
    | some q =>
        rw [hsecond] at hp
        exact h'.columns name p (hsecond.trans hp)
    | none =>
        rw [hsecond] at hp
        exact h.columns name p hp
  file hn name ho := by
    have hsecond := h'.file hn.of_or.2 name ho
    rw [h.dir, h.file hn.of_or.1 name ho] at hsecond
    rw [hsecond]
    cases second name <;> rfl
  manifest hn hs := h'.manifest hn.of_or.2 (h.manifest hn.of_or.1 hs)

open TableStore

theorem follows_of_stores {data : Table} {cached : Bool} {answer : Except StoreError Path}
    (h : Stores s name data cached answer t) (he : ∀ e, answer ≠ .error (.system e)) :
    Follows s (Event.stored? · (.store name data cached answer)) t := by
  cases h with
  | noColumns => exact .refl s
  | failed => exact absurd rfl (he _)
  | stored hf hdir htables hlisted hfile =>
      have hstored (other : String) : Event.stored? other
          (.store name data cached (.ok (s.path name))) =
          if name = other then some (data, cached) else none := rfl
      have hname (hn : Named (Event.stored? · (.store name data cached (.ok (s.path name))))) :
          Directive.isName name = true := hn name (data, cached) ((hstored name).trans (if_pos rfl))
      refine ⟨hdir, fun other => ?_, fun other => ?_, fun other p hp => ?_, fun hn other ho => ?_,
        fun _ hs => ?_⟩
      · unfold entry?
        rw [htables, hstored, Std.ExtTreeMap.getElem?_insert]
        by_cases hne : name = other <;> simp [hne]
      · rw [hlisted, hstored, contains_restored]
        by_cases hne : name = other <;> simp [hne]
      · rw [hstored] at hp
        split at hp
        · cases hp
          exact hf
        · cases hp
      · have hother : (tablePath s.dir other).resolve = (s.path name).resolve ↔ other = name :=
          resolve_tablePath_inj ho (hname hn)
        rw [hfile, hstored, if_neg fun h => resolve_tablePath_ne_manifestPath _ _ h.2]
        by_cases hne : name = other
        · rw [if_pos (hother.mpr hne.symm), if_pos hne]
          rfl
        · rw [if_neg fun h => hne (hother.mp h).symm, if_neg hne]
          rfl
      · exact isCurrent_of_stores (.stored hf hdir htables hlisted hfile) hs

theorem Follows.cons (hevent : Follows s (Event.stored? · event) u)
    (hevents : Follows u (lastStored events) t) :
    Follows s (lastStored (event :: events)) t := by
  have hboth := hevent.trans hevents
  simpa only [← lastStored_cons] using hboth

/-- A journal changes a table store by what it has stored, and by nothing else. -/
theorem Journal.follows (h : Journal s events t) : Follows s (lastStored events) t := by
  induction h with
  | done s => exact .refl s
  | request _ ih | load _ _ ih | bind _ ih => exact (Follows.refl _).cons ih
  | store hs he _ ih => exact (follows_of_stores hs he).cons ih

/-- Nobody else writes the manifest, so that a run always knows what it lists. -/
theorem Journal.isCurrent (h : Journal s events t) (hs : s.IsCurrent) : t.IsCurrent := by
  induction h with
  | done => exact hs
  | request _ ih | load _ _ ih | bind _ ih => exact ih hs
  | store hstores he _ ih =>
      refine ih ?_
      cases hstores with
      | noColumns => exact hs
      | failed => exact absurd rfl (he _)
      | stored hf hdir htables hlisted hfile =>
          exact isCurrent_of_stores (.stored hf hdir htables hlisted hfile) hs

def Unrefused {α : Type} (r : Except JobError α) : Prop := ∀ e, r ≠ .error (.system e)

theorem unrefused_ok {α : Type} (a : α) : Unrefused (.ok a : Except JobError α) :=
  fun _ he => nomatch he

section Performance

variable {σ : Type} {b : Backends σ} {o : RunOptions} {step : Step} {shape : Shape}
  {s t : RunState σ} {outcome : Outcome} {events : List Event} {visit : Visit}

theorem unrefused_of_atStep
    {e : JobError} (h : Unrefused (.error (e.atStep step) : Except JobError Outcome)) {α : Type} :
    Unrefused (.error e : Except JobError α) := by
  intro fault he
  obtain rfl : e = .system fault := by simpa using he
  exact h fault rfl

theorem Asks.journal {endpoint : Option Endpoint} {request : Request} {r : Except JobError Outcome}
    (h : Asks b s endpoint request events r t) : Journal s.store events t.store := by
  cases h with
  | unconfigured => exact .done _
  | answered => exact .request (.done _)

theorem Obtains.journal {r : Except JobError Outcome} (h : Obtains b o step shape s events r t) :
    Journal s.store events t.store := by
  cases h with
  | @reused name answer store _ ha =>
      rw [eq_of_runFrom_load ha]
      exact .load (congrArg Prod.fst ha) (.done _)
  | missing => exact .done _
  | engine _ _ _ ha | service _ _ ha => exact ha.journal

theorem Applies.journal {sink : Sink} {r : Except JobError Unit}
    (h : Applies b outcome s sink events r t) (hr : Unrefused r) :
    Journal s.store events t.store := by
  have hstored {s : TableStore} {name : String} {data : Table} {cached : Bool}
      {answer : Except StoreError Path}
      {store : TableStore} (ha : Act.runFrom s (TableStore.store name data cached) =
        (answer, store))
      (hr : Unrefused ((answer.map fun _ => ()).mapError JobError.ofStore)) :
      Journal s [.store name data cached answer] store := by
    have hs := stores_store s name data cached
    rw [ha] at hs
    refine .store hs (fun e he => ?_) (.done _)
    subst he
    exact hr e rfl
  cases h with
  | stored ha => exact hstored ha hr
  | bound => exact .bind (.done _)
  | refused ha | mutated ha => exact ha.journal
  | keptIds ha hstore => exact ha.journal.append (hstored hstore hr)

theorem Pours.journal {sinks : List Sink} {r : Except JobError Unit}
    (h : Pours b outcome s sinks events r t) (hr : Unrefused r) :
    Journal s.store events t.store := by
  induction h with
  | done => exact .done _
  | failed ha => exact ha.journal hr
  | next ha _ ih => exact (ha.journal (unrefused_ok _)).append (ih hr)

theorem Performs.journal {r : Except JobError Outcome} (h : Performs b o step shape s visit r t)
    (hr : Unrefused r) :
    Journal s.store visit.events t.store := by
  cases h with
  | withoutResult ho => exact ho.journal
  | @withResult _ _ _ _ r _ ho hp =>
      refine ho.journal.append (hp.journal ?_)
      cases r with
      | ok => exact unrefused_ok _
      | error e => exact unrefused_of_atStep hr

theorem Asks.not_stored {endpoint : Option Endpoint} {request : Request}
    {r : Except JobError Outcome} (h : Asks b s endpoint request events r t) (name : String)
    (data : Table) (cached : Bool) (answer : Except StoreError Path) :
    .store name data cached answer ∉ events := by
  cases h <;> simp

theorem Obtains.not_stored {r : Except JobError Outcome} (h : Obtains b o step shape s events r t)
    (name : String) (data : Table) (cached : Bool) (answer : Except StoreError Path) :
    .store name data cached answer ∉ events := by
  cases h with
  | reused | missing => simp
  | engine _ _ _ ha | service _ _ ha => exact ha.not_stored name data cached answer

theorem Applies.stored_mem_tables {sink : Sink} {r : Except JobError Unit}
    (h : Applies b outcome s sink events r t) {name : String} {data : Table} {cached : Bool}
    {answer : Except StoreError Path} (he : .store name data cached answer ∈ events) :
    name ∈ sink.tables := by
  cases h with
  | stored =>
      cases List.mem_singleton.mp he
      exact List.mem_singleton_self name
  | bound => simp at he
  | refused ha | mutated ha => exact absurd he (ha.not_stored name data cached answer)
  | keptIds ha =>
      rcases List.mem_append.mp he with he | he
      · exact absurd he (ha.not_stored name data cached answer)
      · cases List.mem_singleton.mp he
        exact List.mem_singleton_self name

theorem Pours.stored_mem_tables {sinks : List Sink} {r : Except JobError Unit}
    (h : Pours b outcome s sinks events r t) {name : String} {data : Table} {cached : Bool}
    {answer : Except StoreError Path} (he : .store name data cached answer ∈ events) :
    name ∈ sinks.flatMap Sink.tables := by
  induction h with
  | done => cases he
  | failed ha =>
      rw [List.flatMap_cons]
      exact List.mem_append_left _ (ha.stored_mem_tables he)
  | next ha _ ih =>
      rw [List.flatMap_cons]
      rcases List.mem_append.mp he with he | he
      · exact List.mem_append_left _ (ha.stored_mem_tables he)
      · exact List.mem_append_right _ (ih he)

theorem Performs.stored_mem_tables {r : Except JobError Outcome}
    (h : Performs b o step shape s visit r t) {name : String} {data : Table} {cached : Bool}
    {answer : Except StoreError Path} (he : .store name data cached answer ∈ visit.events) :
    name ∈ step.tables := by
  cases h with
  | withoutResult ho => exact absurd he (ho.not_stored name data cached answer)
  | withResult ho hp =>
      rcases List.mem_append.mp he with he | he
      · exact absurd he (ho.not_stored name data cached answer)
      · exact List.mem_append_left _ (hp.stored_mem_tables he)

end Performance

end Run
end TableFlow
