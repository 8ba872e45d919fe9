import TableFlow.Proofs.Script.Lines
import TableFlow.Proofs.Script.ShownSinks
import TableFlow.Proofs.Script.TreeShape

namespace TableFlow

/-- A step where it stands in a tree: the ids of the loops around it, outermost first, and the
parameter and the id of the loop that it drives, if it does. -/
structure Place where
  around : List String
  drives : Option (String × String) := none
  step : Step

namespace Place

def header? (p : Place) : Option String :=
  p.drives.map fun (param, loopId) =>
    StepNode.indent p.around.length ++ s!"loop {loopId} over {param} (line {p.step.line})"

def line (p : Place) : String :=
  if p.drives.isSome then StepNode.indent (p.around.length + 1) ++ "driver " ++ p.step.describe
  else StepNode.indent p.around.length ++ p.step.describe

def lines (p : Place) : List String := p.header?.toList ++ [p.line]

end Place

namespace StepNode

mutual

def places (around : List String) : StepNode → List Place
  | .leaf step => [{ around, step }]
  | .loop param loopId driver body =>
    { around, drives := some (param, loopId), step := driver } :: placesOf (around ++ [loopId]) body

def placesOf (around : List String) : List StepNode → List Place
  | [] => []
  | node :: rest => node.places around ++ placesOf around rest

end

mutual

def loops : StepNode → List (String × String)
  | .leaf _ => []
  | .loop param loopId _ body => (param, loopId) :: loopsOf body

def loopsOf : List StepNode → List (String × String)
  | [] => []
  | node :: rest => node.loops ++ loopsOf rest

end

/-- Whether a line is a header of a loop, by what is written after its indent. -/
def isHeader (line : String) : Bool := "loop ".toList.isPrefixOf (line.toList.dropWhile (· == ' '))

/-- All loops of a node are as `P` has them, with their parameters, ids and drivers. -/
inductive Loops (P : String → String → Step → Prop) : StepNode → Prop
  | leaf {step} : Loops P (.leaf step)
  | loop {param loopId driver body} : P param loopId driver → (∀ node ∈ body, Loops P node) →
      Loops P (.loop param loopId driver body)

end StepNode

namespace Job

def places (j : Job) : List Place := StepNode.placesOf [] j.nodes

def listingText (j : Job) : String := String.join (j.listing.map (· ++ "\n"))

/-- The listing of a job shows each step with a query once, and each loop. -/
structure ShowsSteps (j : Job) : Prop where
  text : j.listingText.toList.splitOn '\n' = j.listing.map String.toList ++ [[]]
  places : j.places.map Place.step = j.steps
  loops : j.places.filterMap Place.drives = StepNode.loopsOf j.nodes
  listing : j.listing = (j.places.filter (·.step.hasQuery)).flatMap Place.lines
  stepLines : j.listing.filter (!StepNode.isHeader ·) =
    (j.places.filter (·.step.hasQuery)).map Place.line
  headers : j.listing.filter StepNode.isHeader = j.places.filterMap Place.header?
  count : (j.listing.filter (!StepNode.isHeader ·)).length = j.stepCount

end Job

def Step.Admits (P : String → String → Step → Prop) (step : Step) : Prop :=
  ∀ param loopId, step.marker = .opens param loopId → ∀ driver : Step, driver.hasQuery = true →
    P param loopId driver

namespace TreeBuilder

open StepNode

variable {P : String → String → Step → Prop} {b b' : TreeBuilder} {nodes : List StepNode}
  {node : StepNode} {step : Step}

structure AllLoops (P : String → String → Step → Prop) (b : TreeBuilder) : Prop where
  root : ∀ node ∈ b.root, node.Loops P
  loops : ∀ l ∈ b.loops, P l.param l.loopId l.driver ∧ ∀ node ∈ l.body, node.Loops P

theorem AllLoops.current (h : b.AllLoops P) : ∀ node ∈ b.current, node.Loops P := by
  rcases b with ⟨root, _ | ⟨l, outer⟩⟩
  · exact h.root
  · exact (h.loops l List.mem_cons_self).2

theorem AllLoops.withCurrent (h : b.AllLoops P) (hnodes : ∀ node ∈ nodes, node.Loops P) :
    (b.withCurrent nodes).AllLoops P := by
  rcases b with ⟨root, _ | ⟨l, outer⟩⟩
  · exact ⟨hnodes, h.loops⟩
  · obtain ⟨hl, houter⟩ := List.forall_mem_cons.mp h.loops
    exact ⟨h.root, List.forall_mem_cons.mpr ⟨⟨hl.1, hnodes⟩, houter⟩⟩

theorem AllLoops.push (h : b.AllLoops P) (hnode : node.Loops P) : (b.push node).AllLoops P :=
  h.withCurrent (List.forall_mem_append.mpr ⟨h.current, List.forall_mem_singleton.mpr hnode⟩)

theorem AllLoops.enter (h : b.AllLoops P) {line : Nat} {param loopId : String} {driver : Step}
    (hdriver : P param loopId driver) : (b.enter ⟨line, param, loopId, driver, []⟩).AllLoops P :=
  ⟨h.root, List.forall_mem_cons.mpr ⟨⟨hdriver, nofun⟩, h.loops⟩⟩

theorem allLoops_of_adds (hb : b.AllLoops P) (h : Adds b step b') (hstep : step.Admits P) :
    b'.AllLoops P := by
  cases h with
  | leaf => exact hb.push .leaf
  | opens hm _ hq => exact hb.enter (hstep _ _ hm step hq)
  | @opensBare param loopId nodes driver hm _ _ hc hd =>
      have hnodes : ∀ node ∈ nodes, node.Loops P :=
        fun node hn => hb.current node (by simp [hc, hn])
      exact (hb.withCurrent hnodes).enter (hstep _ _ hm driver (driver.canDrive_iff.mp hd).1)
  | @closes l outer hl =>
      have hloops := hb.loops
      rw [hl] at hloops
      obtain ⟨⟨hdriver, hbody⟩, houter⟩ := List.forall_mem_cons.mp hloops
      have hrest : (b.leave outer).AllLoops P := ⟨hb.root, houter⟩
      have hclosed : ∀ node ∈ l.body ++ [.leaf step], node.Loops P :=
        List.forall_mem_append.mpr ⟨hbody, List.forall_mem_singleton.mpr .leaf⟩
      exact hrest.push (.loop hdriver hclosed)

end TreeBuilder

theorem loops_of_ofSteps {P : String → String → Step → Prop} {steps : List Step}
    {nodes : List StepNode} (h : StepNode.ofSteps steps = .ok nodes)
    (hsteps : ∀ step ∈ steps, step.Admits P) : ∀ node ∈ nodes, node.Loops P := by
  have hinvariant := TreeBuilder.invariant_of_ofSteps (h := h)
    (I := fun done b => (∀ step ∈ done, step.Admits P) → b.AllLoops P)
    (fun hb hadds hdone => by
      obtain ⟨hbefore, hlast⟩ := List.forall_mem_append.mp hdone
      exact TreeBuilder.allLoops_of_adds (hb hbefore) hadds (hlast _ (List.mem_singleton_self _)))
    (fun _ => ⟨nofun, nofun⟩)
  exact (hinvariant hsteps).root

namespace StepNode

variable {P : String → String → Step → Prop} {around : List String} {node : StepNode}
  {nodes : List StepNode} {place : Place}

theorem placesOf_eq (around : List String) (nodes : List StepNode) :
    placesOf around nodes = nodes.flatMap (places around) := by
  induction nodes with
  | nil => rfl
  | cons node rest ih => rw [placesOf, ih, List.flatMap_cons]

theorem listingOf_eq (depth : Nat) (nodes : List StepNode) :
    listingOf depth nodes = nodes.flatMap (listing depth) := by
  induction nodes with
  | nil => rfl
  | cons node rest ih => rw [listingOf, ih, List.flatMap_cons]

mutual

theorem map_step_places (around : List String) (node : StepNode) :
    (node.places around).map Place.step = node.steps := by
  cases node with
  | leaf step => rfl
  | loop param loopId driver body => rw [places, List.map_cons, map_step_placesOf, steps]

theorem map_step_placesOf (around : List String) (nodes : List StepNode) :
    (placesOf around nodes).map Place.step = stepsOf nodes := by
  cases nodes with
  | nil => rfl
  | cons node rest => rw [placesOf, List.map_append, map_step_places, map_step_placesOf, stepsOf]

end

mutual

theorem drives_places (around : List String) (node : StepNode) :
    (node.places around).filterMap Place.drives = node.loops := by
  cases node with
  | leaf step => rfl
  | loop param loopId driver body =>
      rw [places, loops, ← drives_placesOf]
      rfl

theorem drives_placesOf (around : List String) (nodes : List StepNode) :
    (placesOf around nodes).filterMap Place.drives = loopsOf nodes := by
  cases nodes with
  | nil => rfl
  | cons node rest => rw [placesOf, List.filterMap_append, drives_places, drives_placesOf, loopsOf]

end

theorem Loops.of_mem_places (h : node.Loops P) (hplace : place ∈ node.places around) :
    ∀ param loopId, place.drives = some (param, loopId) → P param loopId place.step := by
  induction h generalizing around with
  | leaf =>
      obtain rfl := List.mem_singleton.mp hplace
      nofun
  | loop hdriver _ ih =>
      rw [places, placesOf_eq, List.mem_cons, List.mem_flatMap] at hplace
      obtain rfl | ⟨node, hnode, hplace⟩ := hplace
      · intro param loopId hdrives
        cases hdrives
        exact hdriver
      · exact ih node hnode hplace

theorem Loops.imp {Q : String → String → Step → Prop} (h : node.Loops P)
    (himp : ∀ param loopId driver, P param loopId driver → Q param loopId driver) :
    node.Loops Q := by
  induction h with
  | leaf => exact .leaf
  | loop hdriver _ ih => exact .loop (himp _ _ _ hdriver) ih

theorem listingOf_places
    (h : ∀ node ∈ nodes, node.listing around.length =
      ((node.places around).filter (·.step.hasQuery)).flatMap Place.lines) :
    listingOf around.length nodes = ((placesOf around nodes).filter (·.step.hasQuery)).flatMap
      Place.lines := by
  rw [listingOf_eq, placesOf_eq, List.filter_flatMap, List.flatMap_assoc]
  exact List.flatMap_congr h

/-- Drivers are listed whether or not they have a query, other steps only if they have one.
Drivers have one. -/
theorem listing_places (h : node.Loops fun _ _ driver => driver.hasQuery = true)
    (around : List String) :
    node.listing around.length = ((node.places around).filter (·.step.hasQuery)).flatMap
      Place.lines := by
  induction h generalizing around with
  | @leaf step =>
      rw [listing, places]
      cases hquery : step.hasQuery <;> simp [hquery, Place.lines, Place.header?, Place.line]
  | @loop param loopId driver body hdriver _ ih =>
      have hbody := listingOf_places fun node hnode => ih node hnode (around ++ [loopId])
      rw [List.length_append, List.length_singleton] at hbody
      rw [listing, places, List.filter_cons_of_pos (by simpa using hdriver),
        List.flatMap_cons, hbody]
      simp [Place.lines, Place.header?, Place.line]

theorem toList_indent (depth : Nat) : (indent depth).toList = List.replicate (2 * depth) ' ' :=
  String.toList_ofList

theorem isHeader_indent (depth : Nat) (line : String) :
    isHeader (indent depth ++ line) = isHeader line := by
  have hblank : ∀ c ∈ List.replicate (2 * depth) ' ', (c == ' ') = true := by simp
  rw [isHeader, String.toList_append, toList_indent, List.dropWhile_append_of_pos hblank, isHeader]

end StepNode

theorem Step.describe_eq (s : Step) :
    s.describe = "line " ++ (toString s.line ++ ": " ++ s.query ++ s.sinkText) := by
  simp only [describe, String.append_assoc]
  rfl

namespace Place

open StepNode

variable {p : Place} {header param loopId : String}

theorem header?_eq (hdrives : p.drives = some (param, loopId)) : p.header? =
    some (indent p.around.length ++
      ("loop " ++ (loopId ++ " over " ++ param ++ " (line " ++ toString p.step.line ++ ")"))) := by
  simp only [header?, hdrives, Option.map_some, Option.some.injEq, String.append_assoc]
  rfl

theorem isHeader_line (p : Place) : isHeader p.line = false := by
  rw [line]
  split
  · rw [String.append_assoc, isHeader_indent]
    simp [isHeader, List.isPrefixOf]
  · rw [isHeader_indent, Step.describe_eq]
    simp [isHeader, List.isPrefixOf]

theorem isHeader_of_header? (h : p.header? = some header) : isHeader header = true := by
  cases hdrives : p.drives with
  | none => simp [header?, hdrives] at h
  | some loop =>
      rw [header?_eq hdrives] at h
      obtain rfl := Option.some.inj h
      rw [isHeader_indent]
      simp [isHeader, List.isPrefixOf]

theorem stepLines_lines (p : Place) : p.lines.filter (!isHeader ·) = [p.line] := by
  cases hheader : p.header? with
  | none => simp [lines, hheader, isHeader_line]
  | some header => simp [lines, hheader, isHeader_line, isHeader_of_header? hheader]

theorem headers_lines (p : Place) : p.lines.filter isHeader = p.header?.toList := by
  cases hheader : p.header? with
  | none => simp [lines, hheader, isHeader_line]
  | some header => simp [lines, hheader, isHeader_line, isHeader_of_header? hheader]

end Place

namespace Text

theorem splitOn_join_lines {lines : List String} (h : ∀ line ∈ lines, OneLine line) :
    (String.join (lines.map (· ++ "\n"))).toList.splitOn '\n' =
      lines.map String.toList ++ [[]] := by
  induction lines with
  | nil => rfl
  | cons line rest ih =>
      obtain ⟨hline, hrest⟩ := List.forall_mem_cons.mp h
      have htext : (String.join ((line :: rest).map (· ++ "\n"))).toList =
          line.toList ++ '\n' :: (String.join (rest.map (· ++ "\n"))).toList := by simp
      rw [htext, List.splitOn_append_cons_self, List.splitOn_eq_singleton hline, ih hrest]
      rfl

theorem oneLine_of_isName {name : String} (h : Directive.isName name = true) : OneLine name :=
  notMem_of_isName h rfl

theorem oneLine_repr (n : Nat) : OneLine n.repr := by
  intro hmem
  have hdigit : '\n'.isDigit = true :=
    Nat.isDigit_of_mem_toDigits (by decide) (by decide) (Nat.toList_repr ▸ hmem)
  cases hdigit

end Text

open Text

theorem Step.oneLine_sinkText {s : Step} (h : ∀ sink ∈ s.sinks, sink.Proper) :
    OneLine s.sinkText := by
  intro hmem
  rw [toList_sinkText] at hmem
  obtain ⟨sink, hsink, hmem⟩ := List.mem_flatMap.mp hmem
  have hname : '\n' ∈ sink.segment.text.toList := by simpa using hmem
  obtain hname | hcolon := Sink.isNameChar_text (h sink hsink) hname
  · cases hname
  · cases hcolon

theorem Step.oneLine_describe {s : Step} (hquery : OneLine s.query)
    (hsinks : ∀ sink ∈ s.sinks, sink.Proper) :
    OneLine s.describe := by
  have hline : OneLine "line " ∧ OneLine ": " := by simp [OneLine]
  rw [describe_eq]
  simp [hline, oneLine_repr, hquery, oneLine_sinkText hsinks]

theorem StepNode.oneLine_indent (depth : Nat) : OneLine (indent depth) := by
  simp [OneLine, toList_indent]

theorem Place.oneLine_of_mem_lines {p : Place} (hstep : OneLine p.step.describe)
    (hdrives : ∀ param loopId, p.drives = some (param, loopId) → OneLine param ∧ OneLine loopId) :
    ∀ line ∈ p.lines, OneLine line := by
  have hline : OneLine p.line := by
    have hdriver : OneLine "driver " := by simp [OneLine]
    rw [line]
    split <;> simp [StepNode.oneLine_indent, hdriver, hstep]
  rw [lines, List.forall_mem_append, List.forall_mem_singleton]
  refine ⟨fun header hheader => ?_, hline⟩
  cases hloop : p.drives with
  | none => simp [header?, hloop] at hheader
  | some loop =>
      obtain ⟨hparam, hid⟩ := hdrives loop.1 loop.2 hloop
      have hwords : OneLine "loop " ∧ OneLine " over " ∧ OneLine " (line " ∧ OneLine ")" := by
        simp [OneLine]
      rw [header?_eq hloop] at hheader
      obtain rfl := List.mem_singleton.mp hheader
      simp [StepNode.oneLine_indent, hwords, hparam, hid, oneLine_repr]

namespace Job

open StepNode

variable {script : String} {job : Job}

theorem oneLine_describe_of_parse (h : parse script = .ok job) :
    ∀ step ∈ job.steps, OneLine step.describe := by
  obtain ⟨steps, hsteps, hsub⟩ := exists_ofLines h
  intro step hstep
  exact Step.oneLine_describe (Step.oneLine_of_lines hsteps step (hsub hstep))
    (Step.proper_of_ofLogicalLines hsteps step (hsub hstep))

theorem loops_of_parse (h : parse script = .ok job) :
    ∀ node ∈ job.nodes, node.Loops fun param loopId driver =>
    driver.hasQuery = true ∧ OneLine param ∧ OneLine loopId := by
  obtain ⟨steps, hsteps, h⟩ := bind_eq_ok_iff.mp h
  obtain ⟨nodes, hnodes, h⟩ := bind_eq_ok_iff.mp h
  cases h
  refine loops_of_ofSteps hnodes fun step hstep param loopId hmarker driver hquery => ?_
  have hnames := Step.isName_of_ofLogicalLines hsteps step hstep
  have hparam : param ∈ step.names := by simp [Step.names, hmarker, LoopMarker.names]
  have hid : loopId ∈ step.names := by simp [Step.names, hmarker, LoopMarker.names]
  exact ⟨hquery, oneLine_of_isName (hnames param hparam), oneLine_of_isName (hnames loopId hid)⟩

theorem drives_of_parse (h : parse script = .ok job) :
    ∀ p ∈ job.places, ∀ param loopId, p.drives = some (param, loopId) →
    p.step.hasQuery = true ∧ OneLine param ∧ OneLine loopId := by
  intro p hp
  rw [places, placesOf_eq, List.mem_flatMap] at hp
  obtain ⟨node, hnode, hp⟩ := hp
  exact (loops_of_parse h node hnode).of_mem_places hp

theorem map_step_places (job : Job) : job.places.map Place.step = job.steps :=
  map_step_placesOf [] job.nodes

theorem listing_of_parse (h : parse script = .ok job) :
    job.listing = (job.places.filter (·.step.hasQuery)).flatMap Place.lines :=
  listingOf_places fun node hnode =>
    listing_places ((loops_of_parse h node hnode).imp fun _ _ _ hloop => hloop.1) []

theorem oneLine_of_mem_listing (h : parse script = .ok job) :
    ∀ line ∈ job.listing, OneLine line := by
  intro line hline
  rw [listing_of_parse h] at hline
  obtain ⟨p, hp, hline⟩ := List.mem_flatMap.mp hline
  have hplace : p ∈ job.places := (List.mem_filter.mp hp).1
  have hstep : p.step ∈ job.steps := job.map_step_places ▸ List.mem_map_of_mem hplace
  exact Place.oneLine_of_mem_lines (oneLine_describe_of_parse h _ hstep)
    (fun _ _ hloop => (drives_of_parse h p hplace _ _ hloop).2) line hline

theorem stepLines_of_parse (h : parse script = .ok job) :
    job.listing.filter (!isHeader ·) = (job.places.filter (·.step.hasQuery)).map Place.line := by
  rw [listing_of_parse h, List.filter_flatMap, List.map_eq_flatMap]
  exact List.flatMap_congr fun p _ => p.stepLines_lines

theorem headers_of_parse (h : parse script = .ok job) :
    job.listing.filter isHeader = job.places.filterMap Place.header? := by
  rw [listing_of_parse h, List.filter_flatMap, List.flatMap_congr fun p _ => p.headers_lines,
    ← List.filterMap_eq_flatMap_toList, List.filterMap_filter]
  refine List.filterMap_congr fun p hp => ?_
  cases hloop : p.drives with
  | none => simp [Place.header?, hloop]
  | some loop => rw [(drives_of_parse h p hp loop.1 loop.2 hloop).1, if_pos rfl]

/-- The listing of an accepted script has a line for each step with a query, in the order of the
steps and as deep as the step stands, and a header for each loop right before its driver. There
are as many lines of steps as steps are counted. -/
theorem listing_shows_steps (h : parse script = .ok job) : job.ShowsSteps := by
  refine ⟨splitOn_join_lines (oneLine_of_mem_listing h), job.map_step_places,
    drives_placesOf [] job.nodes,
    listing_of_parse h, stepLines_of_parse h, headers_of_parse h, ?_⟩
  rw [stepLines_of_parse h, List.length_map, stepCount, ← job.map_step_places, List.filter_map,
    List.length_map]
  rfl

def nested : String :=
  "SELECT i FROM csv.ints => batch_begin:i:L\nSELECT j\n-- each => batch_begin:j:M\n" ++
    "SELECT \x7bi\x7d => var:last\n=> batch_end:M\n=> batch_end:L\nSELECT 1 => csv:done\n"

def nestedLines : List String :=
  ["SELECT i FROM csv.ints => batch_begin:i:L", "SELECT j", "-- each => batch_begin:j:M",
    "SELECT \x7bi\x7d => var:last", "=> batch_end:M", "=> batch_end:L", "SELECT 1 => csv:done"]

def nestedSteps : List Step :=
  [{ line := 1, query := "SELECT i FROM ints", source := some (.localTables ["ints"]),
     marker := .opens "i" "L",
     text := "SELECT i FROM csv.ints => batch_begin:i:L" },
    { line := 2, query := "SELECT j", text := "SELECT j" },
    { line := 3, marker := .opens "j" "M", text := "-- each => batch_begin:j:M" },
    { line := 4, query := "SELECT \x7bi\x7d", sinks := [.variable "last"],
      text := "SELECT \x7bi\x7d => var:last" },
    { line := 5, marker := .closes "M", text := "=> batch_end:M" },
    { line := 6, marker := .closes "L", text := "=> batch_end:L" },
    { line := 7, query := "SELECT 1", sinks := [.localTable "done" false],
      source := some (.localTables []),
      text := "SELECT 1 => csv:done" }]

def nestedJob : Job where
  nodes :=
    [.loop "i" "L" nestedSteps[0]
      [.loop "j" "M" nestedSteps[1] [.leaf nestedSteps[3], .leaf nestedSteps[4]],
        .leaf nestedSteps[5]],
      .leaf nestedSteps[6]]
  digest := Sha256.hex (String.join (nestedLines.map (· ++ "\n")))

theorem parse_nested : parse nested = .ok nestedJob := by
  have hlines : Text.lines nested = nestedLines := by decide +kernel
  have hsteps : Step.ofLines nestedLines = .ok nestedSteps := eq_ok_of_toOption (by decide +kernel)
  have hnodes : StepNode.ofSteps nestedSteps = .ok nestedJob.nodes := rfl
  rw [parse, hlines]
  simp [ofLines, hsteps, hnodes, bind, Except.bind]
  rfl

theorem listing_shows_steps_nested :
    parse nested = .ok nestedJob ∧ nestedJob.ShowsSteps ∧ nestedJob.stepCount = 4 ∧
      nestedJob.listing =
        ["loop L over i (line 1)", "  driver line 1: SELECT i FROM ints",
          "  loop M over j (line 2)",
          "    driver line 2: SELECT j", "    line 4: SELECT \x7bi\x7d => var:last",
          "line 7: SELECT 1 => csv:done"] :=
  ⟨parse_nested, listing_shows_steps parse_nested, by decide, by decide +kernel⟩

end Job

end TableFlow
