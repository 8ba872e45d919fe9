import TableFlow.Local.Script
import TableFlow.Proofs.Script.Statements

namespace TableFlow.LocalScript

open SqlPiece

/-- The text of a query before its semicolons, where these are one run and only blanks come
after it. -/
structure BeforeEnd (front query : List Char) : Prop where
  noSemicolon : ';' ∉ front
  ending : ∃ run gap, query = front ++ run ++ gap ∧ (∀ c ∈ run, c = ';') ∧
    gap.all Text.isBlank = true

def viewHead : String := "CREATE TEMP VIEW " ++ columnsView ++ " AS "

def namesStatement : String := "\nSELECT name FROM pragma_table_info('" ++ columnsView ++ "')"

variable {front query body gap : List Char} {s r : LocalScript}

theorem semicolon_notMem_gap (h : gap.all Text.isBlank = true) : ';' ∉ gap := fun hmem => by
  cases List.all_eq_true.mp h _ hmem

theorem tight_run {run : List Char} (hrun : ∀ c ∈ run, c = ';') (hne : run ≠ []) :
    Text.Tight run := by
  refine ⟨?_, ?_⟩
  · rw [List.head?_eq_some_head hne, hrun _ (List.head_mem hne)]
    rfl
  · rw [List.getLast?_eq_some_getLast hne, hrun _ (List.getLast_mem hne)]
    rfl

/-- The run is what is dropped from the end, and the blanks around it are trimmed. -/
theorem trim_of_beforeEnd (h : BeforeEnd front query) :
    Text.trimEnd (Text.dropEndOf ';' (Text.trim query)) = Text.trim front := by
  obtain ⟨hfront, run, gap, rfl, hrun, hgap⟩ := h
  obtain ⟨before, after, hbefore, hafter, hwhole⟩ := Text.exists_append_trim front
  have hlast {cs : List Char} (hcs : cs ⊆ front) : cs.getLast? ≠ some ';' := fun hc =>
    hfront (hcs (List.mem_of_getLast? hc))
  by_cases hnil : Text.trim front = []
  · have hblank : front.all Text.isBlank = true := by
      rw [hwhole, hnil, List.append_nil, List.all_append, hbefore, hafter]
      rfl
    have htrim : Text.trim (front ++ run ++ gap) = run := by
      by_cases hne : run = []
      · rw [hne, List.append_nil]
        exact Text.trim_of_blank (by rw [List.all_append, hblank, hgap]; rfl)
      · exact (tight_run hrun hne).trim_eq hblank hgap
    have hdrop : Text.dropEndOf ';' ([] ++ run) = [] := Text.dropEndOf_append hrun nofun
    rw [List.nil_append] at hdrop
    rw [htrim, hdrop, hnil]
    rfl
  · have htight := Text.tight_trim hnil
    generalize Text.trim front = middle at hwhole htight ⊢
    subst hwhole
    by_cases hne : run = []
    · have hquery : before ++ middle ++ after ++ run ++ gap =
          before ++ middle ++ (after ++ gap) := by simp [hne]
      have hdrop : Text.dropEndOf ';' (middle ++ []) = middle :=
        Text.dropEndOf_append nofun (hlast (by intro c hc; simp [hc]))
      rw [List.append_nil] at hdrop
      rw [hquery, htight.trim_eq hbefore (by rw [List.all_append, hafter, hgap]; rfl), hdrop,
        Text.trimEnd_of_last htight.last]
    · have hquery : before ++ middle ++ after ++ run ++ gap =
          before ++ (middle ++ after ++ run) ++ gap := by simp
      have hwide : Text.Tight (middle ++ after ++ run) := by
        refine ⟨?_, ?_⟩
        · rw [List.append_assoc, List.head?_append_of_ne_nil _ htight.ne_nil]
          exact htight.head
        · rw [List.getLast?_append_of_ne_nil _ hne]
          exact (tight_run hrun hne).last
      rw [hquery, hwide.trim_eq hbefore hgap,
        Text.dropEndOf_append hrun (hlast (by intro c hc; simp_all)),
        Text.trimEnd_append_gap hafter, Text.trimEnd_of_last htight.last]

theorem BeforeEnd.semicolon_notMem_trim (h : BeforeEnd front query) : ';' ∉ Text.trim front :=
  fun hmem => by
  obtain ⟨before, after, _, _, hwhole⟩ := Text.exists_append_trim front
  exact h.noSemicolon (by rw [hwhole]; simp [hmem])

theorem exists_beforeEnd (h : ';' ∉ Text.trimEnd (Text.dropEndOf ';' (Text.trim query))) :
    ∃ front, BeforeEnd front query := by
  obtain ⟨before, after, hbefore, hafter, hwhole⟩ := Text.exists_append_trim query
  obtain ⟨run, hrun, htrim⟩ := Text.exists_append_dropEndOf ';' (Text.trim query)
  obtain ⟨gap, hgap, hdrop⟩ := Text.exists_append_trimEnd (Text.dropEndOf ';' (Text.trim query))
  refine ⟨before ++ Text.dropEndOf ';' (Text.trim query), ?_, run, after, ?_, hrun, hafter⟩
  · rw [List.mem_append, hdrop, List.mem_append, not_or, not_or]
    exact ⟨semicolon_notMem_gap hbefore, h, semicolon_notMem_gap hgap⟩
  · rw [List.append_assoc before, ← htrim, ← hwhole]

theorem columnsQuery_eq (body : String) : "CREATE TEMP VIEW " ++ columnsView ++ " AS " ++ body ++
    ";\nSELECT name FROM pragma_table_info('" ++ columnsView ++ "')" =
      viewHead ++ body ++ ";" ++ namesStatement := by
  have hsecond : ";\nSELECT name FROM pragma_table_info('" =
      ";" ++ "\nSELECT name FROM pragma_table_info('" := by
    decide +kernel
  have hassoc (view select name close : String) :
      view ++ (";" ++ select) ++ name ++ close = view ++ ";" ++ (select ++ name ++ close) := by
    simp only [String.append_assoc]
  rw [hsecond]
  exact hassoc _ _ _ _

theorem columnsScript_eq_some_iff : s.columnsScript = some r ↔
    ∃ front, BeforeEnd front s.query.toList ∧ Text.trim front ≠ [] ∧
    r =
      ⟨s.imports, false, viewHead ++ String.ofList (Text.trim front) ++ ";" ++ namesStatement⟩ := by
  unfold columnsScript
  simp only [columnsQuery_eq]
  constructor
  · intro h
    split at h
    · cases h
    · rename_i hsome
      rw [Bool.or_eq_true, not_or, List.isEmpty_iff, List.contains_iff_mem] at hsome
      obtain ⟨front, hfront⟩ := exists_beforeEnd hsome.2
      rw [trim_of_beforeEnd hfront] at hsome h
      exact ⟨front, hfront, hsome.1, (Option.some.inj h).symm⟩
  · rintro ⟨front, hfront, hne, rfl⟩
    rw [trim_of_beforeEnd hfront, if_neg]
    rw [Bool.or_eq_true, not_or, List.isEmpty_iff, List.contains_iff_mem]
    exact ⟨hne, hfront.semicolon_notMem_trim⟩

theorem BeforeEnd.unitsOf_eq (h : BeforeEnd front query) :
    ∃ lead run : List Char, lead.all Text.isBlank = true ∧
    (∀ c ∈ run, Text.isBlank c = true ∨ c = ';') ∧
    unitsOf query = codeUnits lead ++ unitsOf (Text.trim front ++ run) := by
  obtain ⟨-, run, gap, rfl, hrun, hgap⟩ := h
  obtain ⟨before, after, hbefore, hafter, hwhole⟩ := Text.exists_append_trim front
  have hblank {gap : List Char} (hgap : gap.all Text.isBlank = true) : ∀ c ∈ gap,
      Text.isBlank c = true ∨ c = ';' :=
    fun c hc => .inl (List.all_eq_true.mp hgap c hc)
  refine ⟨before, after ++ run ++ gap, hbefore, ?_, ?_⟩
  · exact List.forall_mem_append.mpr
      ⟨List.forall_mem_append.mpr ⟨hblank hafter, fun c hc => .inr (hrun c hc)⟩, hblank hgap⟩
  · rw [← unitsOf_plain_append (plain_of_run (hblank hbefore) _)]
    conv => lhs; rw [hwhole]
    simp only [List.append_assoc]

theorem unitsOf_trim_append (run : List Char) (hclosed : isClosed body = true)
    (hrun : ∀ c ∈ run, Text.isBlank c = true ∨ c = ';') :
    unitsOf (body ++ run) = unitsOf body ++ codeUnits run := by
  have hquote : run.head? ≠ some '\'' :=
    fun hhead => notMem_run hrun rfl (by decide) (List.mem_of_head? hhead)
  have hhyphen : run.head? ≠ some '-' :=
    fun hhead => notMem_run hrun rfl (by decide) (List.mem_of_head? hhead)
  rw [unitsOf_closed_append hclosed hquote hhyphen, unitsOf_run hrun]

theorem BeforeEnd.length_statements (h : BeforeEnd front query) :
    (statements query).length ≤ 1 := by
  obtain ⟨lead, run, hlead, hrun, hunits⟩ := h.unitsOf_eq
  rw [statements, hunits]
  cases hclosed : isClosed (Text.trim front) with
  | true =>
      rw [unitsOf_trim_append run hclosed hrun, ← List.append_assoc]
      refine length_statementsIn_append_run ?_ hrun
      exact semicolon_notMem_append (semicolon_notMem_gap hlead)
        (semicolon_notMem_unitsOf h.semicolon_notMem_trim)
  | false =>
      obtain ⟨us, absorbed, rest, hsplit, -, hus, hopen⟩ :=
        exists_unitsOf_open_append hclosed h.semicolon_notMem_trim run
      have hrest : ∀ c ∈ rest, Text.isBlank c = true ∨ c = ';' :=
        fun c hc => hrun c (by rw [hsplit]; simp [hc])
      rw [hopen, unitsOf_run hrest, ← List.append_assoc]
      exact length_statementsIn_append_run
        (semicolon_notMem_append (semicolon_notMem_gap hlead) hus) hrest

theorem BeforeEnd.statements_eq (h : BeforeEnd front query) (hne : Text.trim front ≠ [])
    (hclosed : isClosed (Text.trim front) = true) :
    ∃ statement, statements query = [statement] ∧ Text.trim statement = Text.trim front := by
  obtain ⟨lead, run, hlead, hrun, hunits⟩ := h.unitsOf_eq
  have htight := Text.tight_trim hne
  have hnot : semicolon ∉ codeUnits lead ++ unitsOf (Text.trim front) :=
    semicolon_notMem_append (semicolon_notMem_gap hlead)
      (semicolon_notMem_unitsOf h.semicolon_notMem_trim)
  have hcontent : (codeUnits lead ++ unitsOf (Text.trim front)).any hasContent = true := by
    rw [List.any_append, hasContent_of_closed hclosed htight.last, Bool.or_true]
  have hgap : (run.takeWhile (· != ';')).all Text.isBlank = true := by
    rw [List.all_eq_true]
    intro c hc
    have hkeep := List.all_eq_true.mp List.all_takeWhile c hc
    exact (hrun c (List.takeWhile_subset _ hc)).resolve_right (by simpa using hkeep)
  have hstatements := statementsIn_append_run hnot hrun
  rw [if_pos hcontent, List.append_assoc, ← unitsOf_trim_append run hclosed hrun, ← hunits,
    ← statements] at hstatements
  refine ⟨_, hstatements, ?_⟩
  rw [List.flatMap_append, flatMap_text_unitsOf, flatMap_text_codeUnits]
  exact htight.trim_eq hlead hgap

theorem BeforeEnd.statements_of_blank (h : BeforeEnd front query) (hnil : Text.trim front = []) :
    statements query = [] := by
  obtain ⟨lead, run, hlead, hrun, hunits⟩ := h.unitsOf_eq
  have hnone : (codeUnits lead).any hasContent = false := by
    simpa [codeUnits, hasContent] using hlead
  have hlead : semicolon ∉ codeUnits lead := semicolon_notMem (by
    rw [flatMap_text_codeUnits]
    exact semicolon_notMem_gap hlead)
  have hstatements := statementsIn_append_run hlead hrun
  rwa [hnone, if_neg Bool.false_ne_true, ← unitsOf_run hrun, ← List.nil_append run, ← hnil,
    ← hunits, ← statements] at hstatements

theorem toList_columnsQuery (body : List Char) :
    (viewHead ++ String.ofList body ++ ";" ++ namesStatement).toList =
    viewHead.toList ++ (body ++ ';' :: namesStatement.toList) := by
  have hsemicolon : ";".toList = [';'] := rfl
  rw [String.toList_append, String.toList_append, String.toList_append,
    String.toList_ofList, hsemicolon]
  simp

theorem unitsOf_viewHead_append (rest : List Char) :
    unitsOf (viewHead.toList ++ rest) = codeUnits viewHead.toList ++ unitsOf rest :=
  unitsOf_plain_append (plain_of_notMem (by decide +kernel) (by decide +kernel) rest)

theorem hasContent_viewHead_append (us : List SqlPiece) :
    (codeUnits viewHead.toList ++ us).any hasContent = true := by
  have hhead : (codeUnits viewHead.toList).any hasContent = true := by decide +kernel
  rw [List.any_append, hhead, Bool.true_or]

theorem statements_columnsQuery (hbody : ';' ∉ body) (hclosed : isClosed body = true) :
    statements (viewHead ++ String.ofList body ++ ";" ++ namesStatement).toList =
      [viewHead.toList ++ body, namesStatement.toList] := by
  have hview : semicolon ∉ codeUnits viewHead.toList ++ unitsOf body :=
    semicolon_notMem_append (by decide +kernel) (semicolon_notMem_unitsOf hbody)
  have hnames : semicolon ∉ unitsOf namesStatement.toList :=
    semicolon_notMem_unitsOf (by decide +kernel)
  have hnamesContent : (unitsOf namesStatement.toList).any hasContent = true := by decide +kernel
  have hsemicolon : unitsOf (';' :: namesStatement.toList) =
      semicolon :: unitsOf namesStatement.toList :=
    unitsOf_cons ((leavesCode_eq_false_iff _ _).mpr ⟨by decide, by decide⟩)
  rw [statements, toList_columnsQuery, unitsOf_viewHead_append,
    unitsOf_closed_append hclosed (by simp) (by simp), hsemicolon,
    ← List.append_assoc, statementsIn_append,
      statementsIn_of_content hview (hasContent_viewHead_append _),
    statementsIn_of_content hnames hnamesContent, List.flatMap_append, flatMap_text_codeUnits,
      flatMap_text_unitsOf,
    flatMap_text_unitsOf]
  rfl

/-- The semicolon after an open query ends nothing, and there is no other. -/
theorem length_statements_columnsQuery (hbody : ';' ∉ body) (hopen : isClosed body = false) :
    (statements (viewHead ++ String.ofList body ++ ";" ++ namesStatement).toList).length = 1 := by
  obtain ⟨us, absorbed, rest, hsplit, habsorbed, hus, hunits⟩ :=
    exists_unitsOf_open_append hopen hbody (';' :: namesStatement.toList)
  obtain ⟨first, absorbed, rfl⟩ := List.exists_cons_of_ne_nil (habsorbed rfl)
  have hrest : ';' ∉ rest := fun hmem => by
    have hnames : ';' ∉ namesStatement.toList := by decide +kernel
    rw [(List.cons.inj hsplit).2] at hnames
    exact hnames (List.mem_append_right _ hmem)
  have hinner : semicolon ∉ us ++ unitsOf rest := by
    rw [List.mem_append, not_or]
    exact ⟨hus, semicolon_notMem_unitsOf hrest⟩
  have hnone : semicolon ∉ codeUnits viewHead.toList ++ (us ++ unitsOf rest) :=
    semicolon_notMem_append (by decide +kernel) hinner
  rw [statements, toList_columnsQuery, unitsOf_viewHead_append, hunits,
    statementsIn_of_content hnone (hasContent_viewHead_append _)]
  rfl

/-- A query that gets a script has one statement at most, and one with a statement gets it if
its semicolons are one run at its end. The script makes a view of that statement and lists its
names in a second one, unless the query ends in a comment or an open literal before that run:
then the semicolon between the two is lost in it. -/
theorem columnsScript_exact (s : LocalScript) :
    (∀ r, s.columnsScript = some r → (statements s.query.toList).length ≤ 1) ∧
    ((statements s.query.toList).length = 1 →
      ((∃ r, s.columnsScript = some r) ↔ ∃ front, BeforeEnd front s.query.toList)) ∧
    ∀ r front, s.columnsScript = some r → BeforeEnd front s.query.toList →
      r.imports = s.imports ∧ r.headers = false ∧
      (isClosed (Text.trim front) = true → statements r.query.toList =
          [viewHead.toList ++ Text.trim front, namesStatement.toList] ∧
        ∃ statement, statements s.query.toList = [statement] ∧
          Text.trim statement = Text.trim front) ∧
      (isClosed (Text.trim front) = false → (statements r.query.toList).length = 1) := by
  refine ⟨?_, ?_, ?_⟩
  · intro r hr
    obtain ⟨front, hfront, _⟩ := columnsScript_eq_some_iff.mp hr
    exact hfront.length_statements
  · intro hone
    constructor
    · rintro ⟨r, hr⟩
      obtain ⟨front, hfront, _⟩ := columnsScript_eq_some_iff.mp hr
      exact ⟨front, hfront⟩
    · rintro ⟨front, hfront⟩
      refine ⟨_, columnsScript_eq_some_iff.mpr ⟨front, hfront, fun hnil => ?_, rfl⟩⟩
      rw [hfront.statements_of_blank hnil] at hone
      cases hone
  · intro r front hr hfront
    obtain ⟨other, hother, hne, rfl⟩ := columnsScript_eq_some_iff.mp hr
    rw [← trim_of_beforeEnd hother, trim_of_beforeEnd hfront] at hne ⊢
    refine ⟨rfl, rfl, fun hclosed => ⟨?_, hfront.statements_eq hne hclosed⟩, fun hopen => ?_⟩
    · exact statements_columnsQuery hfront.semicolon_notMem_trim hclosed
    · exact length_statements_columnsQuery hfront.semicolon_notMem_trim hopen

def quoting : LocalScript := { headers := true, query := "SELECT a FROM t WHERE a = ';'" }

def remarking : LocalScript := { headers := true, query := "SELECT a FROM t -- all" }

/-- A semicolon in a literal is taken for a second statement, and a remark at the end takes in
the one that is added. -/
theorem quoted_semicolon_refused :
    (statements quoting.query.toList).length = 1 ∧ quoting.columnsScript = none ∧
      (statements remarking.query.toList).length = 1 ∧
      remarking.columnsScript.map (fun r => (statements r.query.toList).length) = some 1 := by
        decide +kernel

end TableFlow.LocalScript
