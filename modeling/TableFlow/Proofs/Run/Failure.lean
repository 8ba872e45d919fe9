import TableFlow.Proofs.Run.Expansion
import TableFlow.Proofs.Store.Writes

namespace TableFlow

/-- A step needs the service that its query reads and, for a remote sink, `dst`. -/
inductive Step.Needs (step : Step) : Endpoint → Prop
  | source {endpoint object} : step.source = some (.remoteObject endpoint object) →
      Needs step endpoint
  | sink {object op idsTable} : .remoteObject object op idsTable ∈ step.sinks → Needs step .dst

def Backends.Misses {σ : Type} (b : Backends σ) : Endpoint → Prop
  | .src => b.src = none
  | .dst => b.dst = none

theorem Backends.remote_eq_none_iff {σ : Type} {b : Backends σ} {endpoint : Endpoint} :
    b.remote endpoint = none ↔ b.Misses endpoint := by
  cases endpoint <;> simp only [remote_src, remote_dst, Misses]

def Step.Lacks {σ : Type} (step : Step) (b : Backends σ) (endpoint : Endpoint) : Prop :=
  step.Needs endpoint ∧ b.Misses endpoint

inductive JobError.WantsEndpoint : JobError → Prop
  | missing {line endpoint} : WantsEndpoint (.config (.missingEndpoint line endpoint))
  | atStep {endpoint} : WantsEndpoint (.config (.noEndpoint endpoint))

namespace Run

open TableStore

def Event.succeeded : Event → Bool
  | .request _ _ _ answer => answer.isOk
  | .load _ answer => answer.isOk
  | .store _ _ _ answer => answer.isOk
  | .bind _ _ => true

def Event.written? : Event → Option (String × Table)
  | .store name data _ (.ok _) => some (name, data)
  | _ => none

/-- How an operation of a step fails: before anything is asked, or with what comes of a request,
a load or a store. A store that fails may have written its table. -/
inductive Fails {σ : Type} (b : Backends σ) (step : Step) (s : TableStore) :
    List Event → JobError → List (String × Table) → TableStore → Prop
  | missing {table} : table ∈ step.localSources → s.contains table = false →
      Fails b step s [] (.dependency table step.ref) [] s
  | unconfigured {endpoint} : step.Lacks b endpoint →
      Fails b step s [] (.config (.noEndpoint endpoint)) [] s
  | request {endpoint executor request fault} : b.executor? endpoint = some executor →
      Fails b step s [.request endpoint request s.files (.error fault)]
        (.execution executor.backend fault (some step.ref)) [] s
  | load {name e} : (Act.runFrom s (TableStore.load name)).1 = .error e →
      Fails b step s [.load name (.error e)] ((JobError.ofStore e).atStep step) [] s
  | store {name data cached e written t} :
      Act.runFrom s (TableStore.store name data cached) = (.error e, t) →
      Unstored s name data cached e written t →
      Fails b step s [.store name data cached (.error e)]
        ((JobError.ofStore e).atStep step) written t

/-- Events that all succeed, and then the operation that fails. -/
structure Ends {σ : Type} (b : Backends σ) (step : Step) (s : TableStore)
    (past failing : List Event) (e : JobError) (written : List (String × Table)) (t : TableStore) :
    Prop where
  succeeded : ∀ event ∈ past, event.succeeded = true
  fails : ∃ u, Journal s past u ∧ Fails b step u failing e written t

variable {σ : Type} {b : Backends σ} {o : RunOptions} {step : Step} {shape : Shape}
  {s t : RunState σ} {outcome : Outcome} {events past failing : List Event} {visit : Visit}
  {visits : List Visit} {tasks left : List Task} {e : JobError} {written : List (String × Table)}

theorem Journal.writes {s t : TableStore} (h : Journal s events t) :
    Writes s (events.filterMap Event.written?) t := by
  induction h with
  | done s => exact .refl s
  | request _ ih | load _ _ ih | bind _ ih => exact ih
  | @store _ name data _ answer _ _ _ hs he _ ih =>
      cases answer with
      | ok => exact (writes_of_stores hs).trans ih
      | error e =>
          cases hs with
          | noColumns => exact ih
          | failed => exact absurd rfl (he _)

theorem Fails.writes {s t : TableStore} (h : Fails b step s failing e written t) :
    Writes s written t := by
  cases h with
  | store _ hu => exact writes_of_unstored hu
  | missing | unconfigured | request | load => exact .refl s

theorem Ends.writes {s t : TableStore} (h : Ends b step s past failing e written t) :
    Writes s (past.filterMap Event.written? ++ written) t := by
  obtain ⟨u, hjournal, hfails⟩ := h.fails
  exact hjournal.writes.trans hfails.writes

/-- A failure names no step but the one that fails. -/
theorem Fails.names {s t : TableStore} (h : Fails b step s failing e written t) :
    (∀ backend fault ref, e = .execution backend fault ref → ref = some step.ref) ∧
      ∀ table ref, e = .dependency table ref → ref = step.ref := by
  have hstore (err : StoreError) : (∀ backend fault ref, (JobError.ofStore err).atStep step =
      .execution backend fault ref →
        ref = some step.ref) ∧ ∀ table ref, (JobError.ofStore err).atStep step =
          .dependency table ref → ref = step.ref := by
    cases err <;> simp [JobError.ofStore, JobError.atStep, eq_comm]
  cases h with
  | load | store => exact hstore _
  | missing | unconfigured | request => simp [eq_comm]

theorem not_wantsEndpoint_ofStore (err : StoreError) : ¬ (JobError.ofStore err).WantsEndpoint := by
  cases err <;> exact nofun

theorem Fails.lacks {s t : TableStore} (h : Fails b step s failing e written t)
    (he : e.WantsEndpoint) :
    ∃ endpoint, step.Lacks b endpoint := by
  cases h with
  | unconfigured hl => exact ⟨_, hl⟩
  | missing | request => cases he
  | @load _ err | @store _ _ _ err => cases err <;> cases he

theorem Fails.ends {s t : TableStore} (h : Fails b step s failing e written t) :
    Ends b step s [] failing e written t :=
  ⟨List.forall_mem_nil _, s, .done s, h⟩

theorem Ends.prepend {s u t : TableStore} (h : Ends b step u past failing e written t)
    (hjournal : Journal s events u) (hsucceeded : ∀ event ∈ events, event.succeeded = true) :
    Ends b step s (events ++ past) failing e written t := by
  obtain ⟨v, hpast, hfails⟩ := h.fails
  exact ⟨List.forall_mem_append.mpr ⟨hsucceeded, h.succeeded⟩, v, hjournal.append hpast, hfails⟩

theorem Answers.succeeded {event : Event} (h : Answers o step outcome event) :
    event.succeeded = true := by
  cases h <;> rfl

theorem Takes.succeeded {sink : Sink} (h : Takes outcome sink events) :
    ∀ event ∈ events, event.succeeded = true := by
  cases h <;> simp [Event.succeeded, Except.isOk, Except.toBool]

theorem succeeded_flatten {sinks : List Sink} {parts : List (List Event)}
    (h : List.Forall₂ (Takes outcome) sinks parts) :
    ∀ event ∈ parts.flatten, event.succeeded = true := by
  induction h with
  | nil => exact List.forall_mem_nil _
  | cons htakes _ ih => exact List.forall_mem_append.mpr ⟨htakes.succeeded, ih⟩

theorem Visit.Served.succeeded (h : visit.Served o) :
    ∀ event ∈ visit.events, event.succeeded = true := by
  obtain ⟨outcome, answer, parts, _, hevents, ha, hparts⟩ := h
  rw [hevents]
  exact List.forall_mem_cons.mpr ⟨ha.succeeded, succeeded_flatten hparts⟩

theorem exists_of_resolve_eq_error {s : TableStore} {names : List String} {name : String}
    (h : s.resolve names = .error name) : name ∈ names ∧ s.contains name = false := by
  induction names with
  | nil => cases h
  | cons first rest ih =>
      rw [resolve_cons] at h
      split at h
      · have hrest : s.resolve rest = .error name := by
          cases hr : s.resolve rest with
          | ok imports =>
              rw [hr] at h
              cases h
          | error other =>
              rw [hr] at h
              cases h
              rfl
        exact ⟨List.mem_cons_of_mem _ (ih hrest).1, (ih hrest).2⟩
      · rename_i hfirst
        cases h
        exact ⟨List.mem_cons_self, by simpa using hfirst⟩

theorem source_of_remoteSource {endpoint : Endpoint} {object : String}
    (h : step.remoteSource = some (endpoint, object)) :
    step.source = some (.remoteObject endpoint object) := by
  rcases hs : step.source with _ | names | ⟨endpoint', object'⟩ <;> simp_all [Step.remoteSource]

theorem Asks.fails {endpoint : Option Endpoint} {request : Request}
    (h : Asks b s endpoint request events (.error e) t)
    (hneeds : ∀ service, endpoint = some service → step.Needs service) :
    Fails b step s.store events (e.atStep step) [] t.store := by
  generalize hr : (Except.error e : Except JobError Outcome) = r at h
  cases h with
  | unconfigured he hn =>
      cases hr
      exact .unconfigured ⟨hneeds _ he, Backends.remote_eq_none_iff.mp hn⟩
  | @answered executor answer _ hx _ =>
      cases answer <;> cases hr
      exact .request hx

theorem Obtains.fails (h : Obtains b o step shape s events (.error e) t) :
    Fails b step s.store events (e.atStep step) [] t.store := by
  generalize hr : (Except.error e : Except JobError Outcome) = r at h
  cases h with
  | @reused name answer store _ ha =>
      obtain rfl := eq_of_runFrom_load ha
      cases answer <;> cases hr
      exact .load (congrArg Prod.fst ha)
  | missing _ _ hm =>
      cases hr
      obtain ⟨hmem, hcontains⟩ := exists_of_resolve_eq_error hm
      exact .missing hmem hcontains
  | engine _ _ _ ha =>
      subst hr
      exact ha.fails fun _ he => nomatch he
  | service _ hs ha =>
      subst hr
      refine ha.fails fun service he => ?_
      cases he
      exact .source (source_of_remoteSource hs)

theorem fails_store (b : Backends σ) (step : Step) {s t : TableStore} {name : String} {data : Table}
    {cached : Bool} {err : StoreError} (h : Act.runFrom s (TableStore.store name data cached) =
      (.error err, t)) :
    ∃ written, Fails b step s [.store name data cached (.error err)]
      ((JobError.ofStore err).atStep step) written t := by
  have hresult := store_result s name data cached
  rw [h] at hresult
  obtain ⟨written, hu⟩ := hresult
  exact ⟨written, .store h hu⟩

theorem Applies.ends {sink : Sink} (h : Applies b outcome s sink events (.error e) t)
    (hsink : sink ∈ step.sinks) :
    ∃ past failing written, events = past ++ failing ∧
      Ends b step s.store past failing (e.atStep step) written t.store := by
  generalize hr : (Except.error e : Except JobError Unit) = r at h
  cases h with
  | @stored _ _ answer _ ha =>
      cases answer <;> cases hr
      obtain ⟨written, hfails⟩ := fails_store b step ha
      exact ⟨[], _, written, rfl, hfails.ends⟩
  | bound | mutated => cases hr
  | refused ha =>
      cases hr
      refine ⟨[], _, [], rfl, (ha.fails fun service he => ?_).ends⟩
      cases he
      exact .sink hsink
  | @keptIds _ _ _ _ _ _ answer _ ha hstore =>
      have hjournal := ha.journal
      obtain ⟨files, rfl⟩ := ha.eq_of_ok
      cases answer <;> cases hr
      obtain ⟨written, hfails⟩ := fails_store b step hstore
      have hends := hfails.ends.prepend hjournal (List.forall_mem_singleton.mpr rfl)
      exact ⟨_, _, written, rfl, hends⟩

theorem Pours.ends {sinks : List Sink} (h : Pours b outcome s sinks events (.error e) t)
    (hsinks : sinks ⊆ step.sinks) :
    ∃ past failing written, events = past ++ failing ∧
      Ends b step s.store past failing (e.atStep step) written t.store := by
  generalize hr : (Except.error e : Except JobError Unit) = r at h
  induction h with
  | done => cases hr
  | failed ha =>
      cases hr
      exact ha.ends (hsinks List.mem_cons_self)
  | next ha _ ih =>
      obtain ⟨past, failing, written, rfl, hends⟩ := ih (List.subset_of_cons_subset hsinks) hr
      refine ⟨_ ++ past, failing, written, (List.append_assoc ..).symm, ?_⟩
      exact hends.prepend (ha.journal (unrefused_ok _)) ha.takes.succeeded

/-- What a failing step does succeeds up to one operation, and nothing comes after that. -/
theorem Performs.ends (h : Performs b o step shape s visit (.error e) t) :
    ∃ past failing written, visit.events = past ++ failing ∧
      Ends b step s.store past failing e written t.store := by
  generalize hr : (Except.error e : Except JobError Outcome) = r at h
  cases h with
  | withoutResult ho =>
      cases hr
      exact ⟨[], _, [], rfl, ho.fails.ends⟩
  | @withResult _ _ _ _ r _ ho hp =>
      have hjournal := ho.journal
      obtain ⟨answer, rfl, ha⟩ := ho.answers
      cases r <;> cases hr
      obtain ⟨past, failing, written, rfl, hends⟩ := hp.ends (List.Subset.refl _)
      refine ⟨[answer] ++ past, failing, written, (List.append_assoc ..).symm, ?_⟩
      exact hends.prepend hjournal (List.forall_mem_singleton.mpr ha.succeeded)

theorem Performs.lacks (h : Performs b o step shape s visit (.error e) t) (he : e.WantsEndpoint) :
    ∃ endpoint, step.Lacks b endpoint := by
  obtain ⟨_, _, _, _, hends⟩ := h.ends
  obtain ⟨_, _, hfails⟩ := hends.fails
  exact hfails.lacks he

theorem Reaches.succeeded (h : Reaches b o tasks s visits left t) :
    ∀ event ∈ visits.flatMap Visit.events, event.succeeded = true := by
  induction h with
  | here => exact List.forall_mem_nil _
  | skipped _ _ ih | iteration _ ih | rejoin _ ih => exact ih
  | executed _ hp _ ih =>
      rw [List.flatMap_cons]
      exact List.forall_mem_append.mpr ⟨hp.served.1.succeeded, ih⟩

/-- A walk that fails does so at the first step that fails, and the scope around all open
iterations is taken up again. -/
theorem Walks.stops (h : Walks b o tasks s visits (.error e) t) :
    ∃ done visit node rest u v, visits = done ++ [visit] ∧
      Reaches b o tasks s done (.node node :: rest) u ∧
      node.first.hasQuery = true ∧ Performs b o node.first node.shape u visit (.error e) v ∧
      t = { v with scope := outermost rest v.scope } := by
  generalize hr : (Except.error e : Except JobError Unit) = r at h
  induction h with
  | done => cases hr
  | failed hq hp =>
      cases hr
      exact ⟨[], _, _, _, _, _, rfl, .here _ _, hq, hp, rfl⟩
  | skipped hq _ ih =>
      obtain ⟨done, visit, node, rest, u, v, hv, hreaches, hfails⟩ := ih hr
      exact ⟨done, visit, node, rest, u, v, hv, .skipped hq hreaches, hfails⟩
  | executed hq hp _ ih =>
      obtain ⟨done, visit, node, rest, u, v, rfl, hreaches, hfails⟩ := ih hr
      exact ⟨_ :: done, visit, node, rest, u, v, rfl, .executed hq hp hreaches, hfails⟩
  | iteration _ ih =>
      obtain ⟨done, visit, node, rest, u, v, hv, hreaches, hfails⟩ := ih hr
      exact ⟨done, visit, node, rest, u, v, hv, .iteration hreaches, hfails⟩
  | rejoin _ ih =>
      obtain ⟨done, visit, node, rest, u, v, hv, hreaches, hfails⟩ := ih hr
      exact ⟨done, visit, node, rest, u, v, hv, .rejoin hreaches, hfails⟩

end Run
end TableFlow
