import AgenticSDLC.Foundations.Outcome
import AgenticSDLC.Foundations.Reach
import AgenticSDLC.Wiring.SymbolTable

/-!
# Chains of references

A symbol is reached when a chain of references leads to it from module-level code or from a
handler, through the bodies of symbols of code that is no test.  The analysis asks for less: a
name that is referred to anywhere in the set, by a test or by dead code too, counts as reached.
-/

namespace AgenticSDLC.WiringChecker

/-- Source files that parse. -/
structure Files where
  paths : List String
  body : String → List Node

namespace Files

variable (files : Files)

def sources (path : String) : Source := .parsed (files.body path)

def models : List FileModel := files.paths.eraseDups.map fun path ↦ modelOf path (files.body path)

/-- The references of a file. -/
def refs (path : String) : List Reference := referencesAll [] none (files.body path)

/-- A symbol of a file that is no test. -/
structure IsSymbol (symbol : SymbolDef) : Prop where
  path : symbol.path ∈ files.paths
  code : isTestPath symbol.path = false
  mem : (symbol.qualname, symbol) ∈ (modelOf symbol.path (files.body symbol.path)).defs

def IsHandler (symbol : SymbolDef) : Prop :=
  ∃ definition ∈ definitionsAll [] (files.body symbol.path),
    definition.qualname = symbol.qualname ∧ definition.handler = true

/-- Module-level code refers to the name. -/
def ModuleRefers (name : String) : Prop :=
  ∃ path ∈ files.paths, isTestPath path = false ∧ ⟨none, name⟩ ∈ files.refs path

/-- A chain begins at a handler, or at what module-level code refers to. -/
def Root (symbol : SymbolDef) : Prop :=
  files.IsSymbol symbol ∧ (files.IsHandler symbol ∨ files.ModuleRefers symbol.name)

/-- The body of a symbol refers to another one. -/
structure Refers (symbol other : SymbolDef) : Prop where
  source : files.IsSymbol symbol
  target : files.IsSymbol other
  mem : ⟨some symbol.qualname, other.name⟩ ∈ files.refs symbol.path

def Reached (symbol : SymbolDef) : Prop := Reach.Reached files.Root files.Refers symbol

/-! ## The verdicts -/

def ReportedReachable (analysis : Analysis) (symbol : SymbolDef) : Prop :=
  ∃ item ∈ analysis.wiringItems, item.file = symbol.path ∧ item.qualname = some symbol.qualname ∧
    item.reachable = some true

def ReportedDead (analysis : Analysis) (symbol : SymbolDef) : Prop :=
  ∃ dead ∈ analysis.deadCode, dead.file = symbol.path ∧ dead.qualname = symbol.qualname

/-- The analysis reports a symbol as reachable just when a chain reaches it. -/
def Follows : Prop :=
  ∃ analysis, analyze files.paths files.sources = .ok analysis ∧ ∀ symbol, files.IsSymbol symbol →
    (ReportedReachable analysis symbol ↔ files.Reached symbol) ∧
      (ReportedDead analysis symbol ↔ ¬files.Reached symbol)

/-- A reference in a test, or in the body of a definition that no chain reaches. -/
def Stray (path : String) (reference : Reference) : Prop :=
  isTestPath path = true ∨ ∃ owner, reference.owner = some owner ∧
    ∀ symbol, symbol.path = path → symbol.qualname = owner → ¬files.Reached symbol

/-- No symbol that no chain reaches is named by a stray reference, or like an entry point. -/
def Exact : Prop :=
  ∀ symbol, files.IsSymbol symbol → ¬files.Reached symbol →
    (∀ path ∈ files.paths, ∀ reference ∈ files.refs path, files.Stray path reference →
      reference.name ≠ symbol.name) ∧
      symbol.name ∉ repoEntryNames files.models

/-- No handler and no module-level code, and no body of another symbol, refers to these. -/
structure Isolated (dead : SymbolDef → Prop) : Prop where
  root : ∀ symbol, dead symbol → ¬files.Root symbol
  refers : ∀ symbol other, files.Refers symbol other → dead other → dead symbol

/-- Sets of files that differ in tests alone. -/
structure SameCode (other : Files) : Prop where
  paths : ∀ path, isTestPath path = false → (path ∈ files.paths ↔ path ∈ other.paths)
  body : ∀ path ∈ files.paths, isTestPath path = false → files.body path = other.body path

/-! ## The tables of the files -/

variable {files}

theorem mem_models_iff {model : FileModel} :
    model ∈ files.models ↔ ∃ path ∈ files.paths, modelOf path (files.body path) = model := by
  simp [models]

theorem analyze_sources (files : Files) :
    analyze files.paths files.sources = .ok ⟨files.models.flatMap (wiringItems files.models),
      files.models.flatMap (deadCode files.models)⟩ := by
  have hmodels : (files.paths.eraseDups.mapM fun path ↦ parseFile path (files.sources path)) =
      .ok files.models := by
    have hmap := Outcome.mapM_map (fun path ↦ modelOf path (files.body path))
      (fun model ↦ (Except.ok model : Except Python.Exception FileModel)) files.paths.eraseDups
    exact hmap.symm.trans (Outcome.mapM_ok _)
  rw [analyze, hmodels]
  rfl

theorem isSymbol_of_mem {path : String} (hpath : path ∈ files.paths)
    (hcode : isTestPath path = false) {item : String × SymbolDef}
    (h : item ∈ (modelOf path (files.body path)).defs) :
    files.IsSymbol item.2 ∧ item.1 = item.2.qualname ∧ item.2.path = path := by
  obtain ⟨definition, -, hkey, hqualname, -, -, hfile⟩ := definition_of_mem h
  have hname : item.1 = item.2.qualname := hkey.trans hqualname.symm
  refine ⟨⟨hfile ▸ hpath, hfile ▸ hcode, ?_⟩, hname, hfile⟩
  rw [hfile, ← hname]
  exact h

/-- A symbol is determined by its file and its qualified name. -/
theorem IsSymbol.eq {symbol other : SymbolDef} (h : files.IsSymbol symbol)
    (hother : files.IsSymbol other) (hpath : other.path = symbol.path)
    (hqualname : other.qualname = symbol.qualname) : other = symbol := by
  have hmem := hother.mem
  rw [hpath, hqualname] at hmem
  have hsame := List.inj_on_of_nodup_map (nodup_modelOf _ _) hmem h.mem rfl
  exact (Prod.mk.inj hsame).2

theorem IsSymbol.mem_models {symbol : SymbolDef} (h : files.IsSymbol symbol) :
    modelOf symbol.path (files.body symbol.path) ∈ files.models :=
  mem_models_iff.mpr ⟨symbol.path, h.path, rfl⟩

theorem exists_symbol_iff {P : FileModel → SymbolDef → Prop} :
    (∃ model ∈ files.models, model.isTest = false ∧ ∃ entry ∈ model.defs, P model entry.2) ↔
      ∃ symbol, files.IsSymbol symbol ∧ P (modelOf symbol.path (files.body symbol.path)) symbol := by
  constructor
  · rintro ⟨model, hmodel, hcode, entry, hentry, hP⟩
    obtain ⟨path, hpath, rfl⟩ := mem_models_iff.mp hmodel
    rw [isTest_modelOf] at hcode
    obtain ⟨hsymbol, -, hfile⟩ := isSymbol_of_mem hpath hcode hentry
    exact ⟨entry.2, hsymbol, by rwa [hfile]⟩
  · rintro ⟨symbol, hsymbol, hP⟩
    exact ⟨_, hsymbol.mem_models, by rw [isTest_modelOf, hsymbol.code], _, hsymbol.mem, hP⟩

theorem mem_wiringItems_iff {item : WiringItem} :
    item ∈ files.models.flatMap (wiringItems files.models) ↔
      ∃ symbol, files.IsSymbol symbol ∧ wiringItem files.models
        (modelOf symbol.path (files.body symbol.path)) symbol = item := by
  rw [List.mem_flatMap, ← @exists_symbol_iff files fun model symbol ↦
    wiringItem files.models model symbol = item]
  refine exists_congr fun model ↦ and_congr_right fun hmodel ↦ ?_
  obtain ⟨path, -, rfl⟩ := mem_models_iff.mp hmodel
  rw [wiringItems, parseError_modelOf]
  cases (modelOf path (files.body path)).isTest <;> simp

theorem mem_deadCode_iff {dead : DeadCode} :
    dead ∈ files.models.flatMap (deadCode files.models) ↔
      ∃ symbol, files.IsSymbol symbol ∧
        (isReached files.models (modelOf symbol.path (files.body symbol.path)) symbol = false ∧
          ⟨symbol.name, symbol.qualname, symbol.kind, symbol.path, symbol.lineno,
            unreachedReason symbol⟩ = dead) := by
  rw [List.mem_flatMap, ← @exists_symbol_iff files fun model symbol ↦
    isReached files.models model symbol = false ∧ ⟨symbol.name, symbol.qualname, symbol.kind,
      symbol.path, symbol.lineno, unreachedReason symbol⟩ = dead]
  refine exists_congr fun model ↦ and_congr_right fun hmodel ↦ ?_
  obtain ⟨path, -, rfl⟩ := mem_models_iff.mp hmodel
  rw [deadCode, parseError_modelOf]
  cases (modelOf path (files.body path)).isTest <;> simp [and_assoc]

/-- The verdict of the analysis on a symbol. -/
theorem reported_iff {analysis : Analysis} (h : analyze files.paths files.sources = .ok analysis)
    {symbol : SymbolDef} (hsymbol : files.IsSymbol symbol) :
    (ReportedReachable analysis symbol ↔
        isReached files.models (modelOf symbol.path (files.body symbol.path)) symbol = true) ∧
      (ReportedDead analysis symbol ↔
        isReached files.models (modelOf symbol.path (files.body symbol.path)) symbol = false) := by
  obtain rfl := Except.ok.inj ((analyze_sources files).symm.trans h)
  refine ⟨⟨?_, fun hreached ↦ ?_⟩, ⟨?_, fun hdead ↦ ?_⟩⟩
  · rintro ⟨item, hitem, hfile, hqualname, hreachable⟩
    obtain ⟨other, hother, rfl⟩ := mem_wiringItems_iff.mp hitem
    obtain rfl := hsymbol.eq hother hfile (Option.some.inj hqualname)
    exact Option.some.inj hreachable
  · exact ⟨_, mem_wiringItems_iff.mpr ⟨symbol, hsymbol, rfl⟩, rfl, rfl, congrArg some hreached⟩
  · rintro ⟨dead, hdead, hfile, hqualname⟩
    obtain ⟨other, hother, hunreached, rfl⟩ := mem_deadCode_iff.mp hdead
    obtain rfl := hsymbol.eq hother hfile hqualname
    exact hunreached
  · exact ⟨_, mem_deadCode_iff.mpr ⟨symbol, hsymbol, hdead, rfl⟩, rfl, rfl⟩

/-! ## The pool of names -/

theorem mem_repoReferenced_iff {name : String} :
    name ∈ repoReferenced files.models ↔
      ∃ path ∈ files.paths, ∃ reference ∈ files.refs path, reference.name = name := by
  rw [repoReferenced, List.mem_flatMap]
  constructor
  · rintro ⟨model, hmodel, hname⟩
    obtain ⟨path, hpath, rfl⟩ := mem_models_iff.mp hmodel
    rw [referencedNames_modelOf] at hname
    exact ⟨path, hpath, List.mem_map.mp hname⟩
  · rintro ⟨path, hpath, reference, hreference, hname⟩
    refine ⟨_, mem_models_iff.mpr ⟨path, hpath, rfl⟩, ?_⟩
    rw [referencedNames_modelOf]
    exact List.mem_map.mpr ⟨reference, hreference, hname⟩

theorem IsSymbol.entryName {symbol : SymbolDef} (h : files.IsSymbol symbol)
    (hentry : symbol.qualname ∈ (modelOf symbol.path (files.body symbol.path)).entryQualnames) :
    symbol.name ∈ repoEntryNames files.models := by
  rw [repoEntryNames, List.mem_flatMap]
  refine ⟨_, h.mem_models, List.mem_map.mpr ⟨_, List.mem_filter.mpr ⟨h.mem, ?_⟩, rfl⟩⟩
  rw [decide_eq_true_iff, repoEntryQualnames, List.mem_flatMap]
  exact ⟨_, h.mem_models, hentry⟩

/-- The decorator of a symbol is that of its last definition. -/
theorem IsSymbol.handler {symbol : SymbolDef} (h : files.IsSymbol symbol)
    (hdecorated : symbol.decorated = true) : files.IsHandler symbol := by
  obtain ⟨definition, hdefinition, -, hqualname, -, hhandler, -⟩ := definition_of_mem h.mem
  exact ⟨definition, hdefinition, hqualname.symm, hhandler.symm.trans hdecorated⟩

theorem isReached_iff {symbol : SymbolDef} (h : files.IsSymbol symbol) :
    isReached files.models (modelOf symbol.path (files.body symbol.path)) symbol = true ↔
      symbol.decorated = true ∨
        (∃ path ∈ files.paths, ∃ reference ∈ files.refs path, reference.name = symbol.name) ∨
          symbol.name ∈ repoEntryNames files.models := by
  have hentry := h.entryName
  rw [isReached, ← mem_repoReferenced_iff]
  simp only [Bool.or_eq_true, decide_eq_true_eq]
  tauto

theorem Reached.isSymbol {symbol : SymbolDef} (h : files.Reached symbol) :
    files.IsSymbol symbol := by
  apply Reach.Reached.holds h
  · exact fun _ hroot ↦ hroot.1
  · exact fun _ _ _ hrefers ↦ hrefers.target

/-- The analysis finds whatever a chain reaches. -/
theorem Reached.isReached {symbol : SymbolDef} (h : files.Reached symbol) :
    isReached files.models (modelOf symbol.path (files.body symbol.path)) symbol = true := by
  have hsymbol := h.isSymbol
  rw [isReached_iff hsymbol]
  rcases Reach.reached_iff.mp h with ⟨-, ⟨definition, hdefinition, hqualname, hhandler⟩ |
    ⟨path, hpath, -, hreference⟩⟩ | ⟨other, hother, hrefers⟩
  · have hentry := (collects_modelOf symbol.path (files.body symbol.path)).handlers hsymbol.code
      definition hdefinition hhandler
    rw [hqualname] at hentry
    exact Or.inr (Or.inr (hsymbol.entryName hentry))
  · exact Or.inr (Or.inl ⟨path, hpath, _, hreference, rfl⟩)
  · exact Or.inr (Or.inl ⟨other.path, hrefers.source.path, _, hrefers.mem, rfl⟩)

/-- A reference to a symbol that no chain reaches is a stray one. -/
theorem stray_of_not_reached {symbol : SymbolDef} (hsymbol : files.IsSymbol symbol)
    (hdead : ¬files.Reached symbol) {path : String} (hpath : path ∈ files.paths)
    {reference : Reference} (hreference : reference ∈ files.refs path)
    (hname : reference.name = symbol.name) : files.Stray path reference := by
  obtain ⟨owner, name⟩ := reference
  obtain rfl : name = symbol.name := hname
  cases hcode : isTestPath path with
  | true => exact Or.inl hcode
  | false =>
      cases owner with
      | none =>
          have hroot : files.Root symbol := ⟨hsymbol, Or.inr ⟨path, hpath, hcode, hreference⟩⟩
          exact absurd (Reach.Reached.of_root hroot) hdead
      | some owner =>
          refine Or.inr ⟨owner, rfl, ?_⟩
          rintro other rfl rfl hother
          have hrefers : files.Refers other symbol := ⟨hother.isSymbol, hsymbol, hreference⟩
          exact hdead (hother.next hrefers)

/-- The verdicts follow the chains just when every name that is pooled is one they reach. -/
theorem follows_iff_exact (files : Files) : files.Follows ↔ files.Exact := by
  constructor
  · rintro ⟨analysis, hanalysis, hverdicts⟩ symbol hsymbol hdead
    have hreported := (reported_iff hanalysis hsymbol).1
    have hnot : ¬isReached files.models (modelOf symbol.path (files.body symbol.path)) symbol =
        true := fun hreached ↦ hdead ((hverdicts symbol hsymbol).1.mp (hreported.mpr hreached))
    rw [isReached_iff hsymbol] at hnot
    refine ⟨fun path hpath reference hreference _ hname ↦ ?_, fun hentry ↦ ?_⟩
    · exact hnot (Or.inr (Or.inl ⟨path, hpath, reference, hreference, hname⟩))
    · exact hnot (Or.inr (Or.inr hentry))
  · intro h
    refine ⟨_, analyze_sources files, fun symbol hsymbol ↦ ?_⟩
    obtain ⟨hreachable, hdead⟩ := reported_iff (analyze_sources files) hsymbol
    have hreached : isReached files.models (modelOf symbol.path (files.body symbol.path)) symbol =
        true ↔ files.Reached symbol := by
      refine ⟨fun hpooled ↦ by_contra fun hnot ↦ ?_, Reached.isReached⟩
      obtain ⟨hstray, hentry⟩ := h symbol hsymbol hnot
      rcases (isReached_iff hsymbol).mp hpooled with hdecorated |
        ⟨path, hpath, reference, hreference, hname⟩ | hnamed
      · exact hnot (Reach.Reached.of_root ⟨hsymbol, Or.inl (hsymbol.handler hdecorated)⟩)
      · exact hstray path hpath reference hreference
          (stray_of_not_reached hsymbol hnot hpath hreference hname) hname
      · exact hentry hnamed
    rw [hreachable, hdead, ← hreached, Bool.not_eq_true]
    exact ⟨Iff.rfl, Iff.rfl⟩

/-! ## Tests and dead code -/

theorem Isolated.not_reached {dead : SymbolDef → Prop} (h : files.Isolated dead)
    {symbol : SymbolDef} (hdead : dead symbol) : ¬files.Reached symbol :=
  Reach.not_reached_of_closed h.root h.refers hdead

section SameCode

variable {other : Files} (h : files.SameCode other)
include h

theorem SameCode.symm : other.SameCode files where
  paths := fun path hcode ↦ (h.paths path hcode).symm
  body := fun path hpath hcode ↦ (h.body path ((h.paths path hcode).mpr hpath) hcode).symm

theorem SameCode.isSymbol {symbol : SymbolDef} (hsymbol : files.IsSymbol symbol) :
    other.IsSymbol symbol := by
  refine ⟨(h.paths _ hsymbol.code).mp hsymbol.path, hsymbol.code, ?_⟩
  rw [← h.body _ hsymbol.path hsymbol.code]
  exact hsymbol.mem

/-- What chains reach does not depend on tests. -/
theorem SameCode.reached {symbol : SymbolDef} (hreached : files.Reached symbol) :
    other.Reached symbol := by
  apply Reach.Reached.holds hreached
  · rintro symbol ⟨hsymbol, hroot⟩
    have hbody := h.body _ hsymbol.path hsymbol.code
    refine Reach.Reached.of_root ⟨h.isSymbol hsymbol, ?_⟩
    rcases hroot with hhandler | ⟨path, hpath, hcode, hreference⟩
    · rw [IsHandler, hbody] at hhandler
      exact Or.inl hhandler
    · rw [refs, h.body path hpath hcode] at hreference
      exact Or.inr ⟨path, (h.paths path hcode).mp hpath, hcode, hreference⟩
  · intro first second hfirst hrefers
    have hmem := hrefers.mem
    rw [refs, h.body _ hrefers.source.path hrefers.source.code] at hmem
    exact hfirst.next ⟨h.isSymbol hrefers.source, h.isSymbol hrefers.target, hmem⟩

end SameCode

/-- The analysis follows the chains just when the set of files has no stray names.  Where it
does, it reports symbols as dead that only refer to each other, and tests take none back. -/
theorem analyze_follows_chains_iff (files : Files) :
    (files.Follows ↔ files.Exact) ∧
      (files.Exact → ∀ analysis, analyze files.paths files.sources = .ok analysis →
        ∀ dead, files.Isolated dead → ∀ symbol, files.IsSymbol symbol → dead symbol →
          ReportedDead analysis symbol) ∧
      ∀ other, files.SameCode other → other.Exact →
        ∀ analysis analysis', analyze files.paths files.sources = .ok analysis →
          analyze other.paths other.sources = .ok analysis' → ∀ symbol, files.IsSymbol symbol →
            ReportedDead analysis symbol → ReportedDead analysis' symbol := by
  refine ⟨follows_iff_exact files, ?_, ?_⟩
  · intro hexact analysis hanalysis dead hisolated symbol hsymbol hdead
    obtain ⟨analysis', hanalysis', hverdicts⟩ := (follows_iff_exact files).mpr hexact
    obtain rfl := Except.ok.inj (hanalysis.symm.trans hanalysis')
    exact (hverdicts symbol hsymbol).2.mpr (hisolated.not_reached hdead)
  · intro other hcode hexact analysis analysis' hanalysis hanalysis' symbol hsymbol hdead
    obtain ⟨found, hfound, hverdicts⟩ := (follows_iff_exact other).mpr hexact
    obtain rfl := Except.ok.inj (hanalysis'.symm.trans hfound)
    refine (hverdicts symbol (hcode.isSymbol hsymbol)).2.mpr fun hreached ↦ ?_
    have hpooled := (hcode.symm.reached hreached).isReached
    have hunreached := (reported_iff hanalysis hsymbol).2.mp hdead
    rw [hpooled] at hunreached
    cases hunreached

/-- A function that a test calls, and nothing else. -/
def testedOnly : Files where
  paths := ["src/a.py", "tests/test_a.py"]
  body := fun path ↦
    if path = "src/a.py" then [.functionDef "f" 1 [] [] [] []]
    else [.other [.call (.name "f" true) []]]

theorem testedOnly_path {path : String} (hpath : path ∈ testedOnly.paths)
    (hcode : isTestPath path = false) : path = "src/a.py" := by
  rcases List.mem_pair.mp hpath with hfirst | rfl
  · exact hfirst
  · have htest : isTestPath "tests/test_a.py" = true := by decide +kernel
    rw [htest] at hcode
    cases hcode

/-- No decorator and no module-level code leads to the function. -/
theorem testedOnly_isolated : testedOnly.Isolated fun _ ↦ True where
  refers := fun _ _ _ _ ↦ trivial
  root := by
    rintro symbol - ⟨hsymbol, hroot⟩
    rcases hroot with ⟨definition, hdefinition, -, hhandler⟩ | ⟨path, hpath, hcode, hrefers⟩
    · rw [testedOnly_path hsymbol.path hsymbol.code] at hdefinition
      obtain rfl : definition = ⟨"f", "f", false⟩ := by
        simpa [testedOnly, definitionsAll, definitions, defined, qual] using hdefinition
      cases hhandler
    · rw [testedOnly_path hpath hcode] at hrefers
      simp [refs, testedOnly, referencesAll, references, referred, decoratorNames] at hrefers

/-- The function is reported as reachable, though no chain leads to it. -/
theorem tested_only_is_no_chain : ¬testedOnly.Follows := by
  rw [follows_iff_exact]
  intro hexact
  have hsymbol : testedOnly.IsSymbol ⟨"f", "f", .function, "src/a.py", 1, false⟩ :=
    ⟨by decide, by decide +kernel, List.mem_singleton_self _⟩
  have hdead : ¬testedOnly.Reached ⟨"f", "f", .function, "src/a.py", 1, false⟩ :=
    testedOnly_isolated.not_reached trivial
  have hstray := (hexact _ hsymbol hdead).1 "tests/test_a.py" (by decide) ⟨none, "f"⟩
    List.mem_cons_self (Or.inl (by decide +kernel))
  exact hstray rfl

end Files

end AgenticSDLC.WiringChecker
