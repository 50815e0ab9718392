import AgenticSDLC.Wiring.IngestFrame
import AgenticSDLC.Wiring.SymbolTable

/-!
# Obligations that are lost

Each symbol of the files that are analyzed should have an item of its own in the model.  The
schema refuses a batch with a place beyond three digits, and a name that an item or another
symbol before it bears already keeps a symbol out.
-/

namespace AgenticSDLC.WiringIngest

open Python (Key)
open WiringChecker

/-! ## The symbols of a run -/

/-- The symbols of a file that parses and is no test. -/
def pathSymbols (path : String) : Source → List SymbolDef
  | .parsed body => if isTestPath path then [] else (modelOf path body).defs.map Prod.snd
  | _ => []

def Run.symbols (run : Run) : List SymbolDef :=
  run.sourcePaths.eraseDups.flatMap fun path ↦ pathSymbols path (run.sources path)

/-- The name and the file by which an obligation is told apart. -/
def symbolKey (symbol : SymbolDef) : String × String := (symbol.qualname, symbol.path)

def obligationKey (item : WiringItem) : String × String := (item.identity, item.file)

theorem mem_pathSymbols_iff {path : String} {source : Source} {symbol : SymbolDef} :
    symbol ∈ pathSymbols path source ↔ ∃ body, source = .parsed body ∧ isTestPath path = false ∧
      symbol.path = path ∧ (symbol.qualname, symbol) ∈ (modelOf path body).defs := by
  cases source with
  | parsed body =>
      rw [pathSymbols]
      cases htest : isTestPath path with
      | true => simp
      | false =>
          rw [if_neg Bool.false_ne_true, List.mem_map]
          constructor
          · rintro ⟨item, hitem, rfl⟩
            obtain ⟨hkey, hpath, -⟩ := symbol_of_mem hitem
            exact ⟨body, rfl, rfl, hpath, hkey ▸ hitem⟩
          · rintro ⟨_, ⟨⟩, -, -, hmem⟩
            exact ⟨_, hmem, rfl⟩
  | _ => simp [pathSymbols]

/-- A symbol is told apart by its name and its file. -/
theorem eq_of_symbolKey {run : Run} {symbol other : SymbolDef} (h : symbol ∈ run.symbols)
    (hother : other ∈ run.symbols) (hkey : symbolKey symbol = symbolKey other) : symbol = other := by
  obtain ⟨path, -, hmem⟩ := List.mem_flatMap.mp h
  obtain ⟨path', -, hmem'⟩ := List.mem_flatMap.mp hother
  obtain ⟨body, hsource, -, rfl, hdefs⟩ := mem_pathSymbols_iff.mp hmem
  obtain ⟨body', hsource', -, rfl, hdefs'⟩ := mem_pathSymbols_iff.mp hmem'
  obtain ⟨hqualname, hpath⟩ := Prod.mk.inj hkey
  rw [← hpath, hsource] at hsource'
  obtain rfl := Source.parsed.inj hsource'
  rw [← hpath, ← hqualname] at hdefs'
  exact (Prod.mk.inj (List.inj_on_of_nodup_map (nodup_modelOf _ _) hdefs hdefs' rfl)).2

/-- What a file adds to the obligations: its symbols. -/
theorem obligationKeys_of_parse {models : List FileModel} {path : String} {source : Source}
    {model : FileModel} (h : parseFile path source = .ok model) :
    ((wiringItems models model).filter isObligation).map obligationKey =
      (pathSymbols path source).map symbolKey := by
  cases source with
  | parsed body =>
      obtain rfl : modelOf path body = model := Except.ok.inj h
      rw [wiringItems, parseError_modelOf, pathSymbols]
      simp only [isTest_modelOf]
      split_ifs
      · rfl
      · have hall : ∀ item ∈ (modelOf path body).defs.map fun item ↦
            wiringItem models (modelOf path body) item.2, isObligation item = true := by
          intro item hitem
          obtain ⟨entry, hentry, rfl⟩ := List.mem_map.mp hitem
          obtain ⟨-, -, hname, -⟩ := symbol_of_mem hentry
          simp [isObligation, wiringItem, hname]
        rw [List.filter_eq_self.mpr hall, List.map_map, List.map_map]
        refine List.map_congr_left fun entry hentry ↦ ?_
        obtain ⟨-, -, -, hqualname⟩ := symbol_of_mem hentry
        simp [obligationKey, symbolKey, WiringItem.identity, wiringItem, hqualname]
  | raises exc => cases h
  | unreadable detail =>
      obtain rfl := Except.ok.inj h
      rfl
  | syntaxError lineno msg =>
      obtain rfl := Except.ok.inj h
      rfl

/-- The obligations of an analysis are those for the symbols, one after another. -/
theorem obligationKeys_eq {run : Run} {analysis : Analysis}
    (h : analyze run.sourcePaths run.sources = .ok analysis) :
    (obligations analysis).map obligationKey = run.symbols.map symbolKey := by
  obtain ⟨models, hmodels, hanalysis⟩ := Outcome.bind_eq_ok_iff.mp h
  obtain rfl := Except.ok.inj hanalysis
  have hall (others : List FileModel) :
      ((models.flatMap (wiringItems others)).filter isObligation).map obligationKey =
        run.symbols.map symbolKey := by
    have hrel := Outcome.forall₂_of_mapM_eq_ok hmodels
    rw [Run.symbols]
    generalize run.sourcePaths.eraseDups = paths at hrel ⊢
    clear hmodels h hanalysis
    induction hrel with
    | nil => rfl
    | @cons path model paths models hparse _ ih =>
        rw [List.flatMap_cons, List.filter_append, List.map_append, List.flatMap_cons,
          List.map_append, ih, obligationKeys_of_parse hparse]
  exact hall models

/-! ## The symbols that are new -/

/-- The place of a symbol that no symbol before it shares its name with. -/
structure Run.First (run : Run) (place : ℕ) (symbol : SymbolDef) : Prop where
  at_place : run.symbols[place]? = some symbol
  first : ∀ before < place, ∀ other, run.symbols[before]? = some other →
    other.qualname ≠ symbol.qualname

/-- The obligation is at the place, and the first of its name. -/
structure FirstAt (items : List WiringItem) (place : ℕ) (item : WiringItem) : Prop where
  at_place : items[place]? = some item
  first : ∀ before < place, ∀ other, items[before]? = some other →
    other.identity ≠ item.identity

theorem firstAt_zero_iff {items : List WiringItem} {first item : WiringItem} :
    FirstAt (first :: items) 0 item ↔ first = item := by
  refine ⟨fun h ↦ Option.some.inj h.at_place, ?_⟩
  rintro rfl
  exact ⟨rfl, fun before hbefore ↦ absurd hbefore (Nat.not_lt_zero before)⟩

theorem firstAt_succ_iff {items : List WiringItem} {place : ℕ} {first item : WiringItem} :
    FirstAt (first :: items) (place + 1) item ↔
      first.identity ≠ item.identity ∧ FirstAt items place item := by
  constructor
  · rintro ⟨hitem, hfirst⟩
    refine ⟨hfirst 0 (Nat.succ_pos place) first rfl, hitem, ?_⟩
    exact fun before hbefore ↦ hfirst (before + 1) (Nat.succ_lt_succ hbefore)
  · rintro ⟨hne, hitem, hfirst⟩
    refine ⟨hitem, fun before hbefore other hother ↦ ?_⟩
    cases before with
    | zero => rwa [← Option.some.inj hother]
    | succ before => exact hfirst before (Nat.lt_of_succ_lt_succ hbefore) other hother

theorem exists_firstAt_cons_iff {items : List WiringItem} {start number : ℕ}
    {first item : WiringItem} :
    (∃ place, number = start + place ∧ FirstAt (first :: items) place item) ↔
      first = item ∧ number = start ∨ first.identity ≠ item.identity ∧
        ∃ place, number = start + 1 + place ∧ FirstAt items place item := by
  constructor
  · rintro ⟨place, hplace, hitem⟩
    cases place with
    | zero => exact Or.inl ⟨firstAt_zero_iff.mp hitem, hplace⟩
    | succ place =>
        obtain ⟨hne, hrest⟩ := firstAt_succ_iff.mp hitem
        exact Or.inr ⟨hne, place, by omega, hrest⟩
  · rintro (⟨hfirst, hnumber⟩ | ⟨hne, place, hplace, hrest⟩)
    · exact ⟨0, hnumber, firstAt_zero_iff.mpr hfirst⟩
    · exact ⟨place + 1, by omega, firstAt_succ_iff.mpr ⟨hne, hrest⟩⟩

/-- The first obligations of a name, and their numbers. -/
theorem mem_newSymbols_iff {known : List Key} {items : List WiringItem} {start : ℕ}
    {entry : WiringItem × ℕ} :
    entry ∈ newSymbols known (items.zipIdx start) ↔ Key.str entry.1.identity ∉ known ∧
      ∃ place, entry.2 = start + place ∧ FirstAt items place entry.1 := by
  induction items generalizing known start with
  | nil =>
      apply iff_of_false List.not_mem_nil
      rintro ⟨-, place, -, ⟨⟩, -⟩
  | cons item items ih =>
      rw [List.zipIdx_cons, newSymbols, exists_firstAt_cons_iff]
      split_ifs with hknown
      · rw [ih]
        refine and_congr_right fun hfresh ↦ ?_
        have hne : item.identity ≠ entry.1.identity := fun hsame ↦ hfresh (hsame ▸ hknown)
        have hother : ¬(item = entry.1 ∧ entry.2 = start) := fun h ↦ hne (congrArg _ h.1)
        rw [and_iff_right hne]
        exact (or_iff_right hother).symm
      · rw [List.mem_cons, ih, List.mem_cons, not_or, Key.str.injEq]
        constructor
        · rintro (rfl | ⟨⟨hne, hfresh⟩, hrest⟩)
          · exact ⟨hknown, Or.inl ⟨rfl, rfl⟩⟩
          · exact ⟨hfresh, Or.inr ⟨Ne.symm hne, hrest⟩⟩
        · rintro ⟨hfresh, ⟨hitem, hnumber⟩ | ⟨hne, hrest⟩⟩
          · exact Or.inl (Prod.ext hitem.symm hnumber)
          · exact Or.inr ⟨⟨Ne.symm hne, hfresh⟩, hrest⟩

section Places

variable {run : Run} {analysis : Analysis} {known : List Key}

theorem getElem?_obligations (hkeys : (obligations analysis).map obligationKey =
    run.symbols.map symbolKey) (place : ℕ) :
    (obligations analysis)[place]?.map obligationKey = run.symbols[place]?.map symbolKey := by
  rw [← List.getElem?_map, hkeys, List.getElem?_map]

theorem exists_first_of_mem (hkeys : (obligations analysis).map obligationKey =
    run.symbols.map symbolKey) {entry : WiringItem × ℕ}
    (h : entry ∈ newSymbols known ((obligations analysis).zipIdx 1)) :
    ∃ place symbol, run.First place symbol ∧ Key.str symbol.qualname ∉ known ∧
      entry.2 = 1 + place ∧ obligationKey entry.1 = symbolKey symbol := by
  obtain ⟨hfresh, place, hplace, hitem, hfirst⟩ := mem_newSymbols_iff.mp h
  have hsymbol := getElem?_obligations hkeys place
  rw [hitem] at hsymbol
  obtain ⟨symbol, hat, hkey⟩ := Option.map_eq_some_iff.mp hsymbol.symm
  have hqualname : symbol.qualname = entry.1.identity := congrArg Prod.fst hkey
  refine ⟨place, symbol, ⟨hat, fun before hbefore other hother ↦ ?_⟩, ?_, hplace, hkey.symm⟩
  · have hsame := getElem?_obligations hkeys before
    rw [hother] at hsame
    obtain ⟨item, hitem', hkey'⟩ := Option.map_eq_some_iff.mp hsame
    have hidentity : item.identity = other.qualname := congrArg Prod.fst hkey'
    rw [hqualname, ← hidentity]
    exact hfirst before hbefore item hitem'
  · rwa [hqualname]

theorem exists_mem_of_first (hkeys : (obligations analysis).map obligationKey =
    run.symbols.map symbolKey) {place : ℕ} {symbol : SymbolDef} (hfirst : run.First place symbol)
    (hfresh : Key.str symbol.qualname ∉ known) :
    ∃ item, (item, 1 + place) ∈ newSymbols known ((obligations analysis).zipIdx 1) ∧
      obligationKey item = symbolKey symbol := by
  have hitem := getElem?_obligations hkeys place
  rw [hfirst.at_place] at hitem
  obtain ⟨item, hat, hkey⟩ := Option.map_eq_some_iff.mp hitem
  have hidentity : item.identity = symbol.qualname := congrArg Prod.fst hkey
  refine ⟨item, mem_newSymbols_iff.mpr ⟨?_, place, rfl, hat, ?_⟩, hkey⟩
  · rwa [hidentity]
  · intro before hbefore other hother
    have hsame := getElem?_obligations hkeys before
    rw [hother] at hsame
    obtain ⟨symbol', hat', hkey'⟩ := Option.map_eq_some_iff.mp hsame.symm
    have hqualname : symbol'.qualname = other.identity := congrArg Prod.fst hkey'
    rw [hidentity, ← hqualname]
    exact hfirst.first before hbefore symbol' hat'

end Places

/-! ## Items of symbols -/

/-- The item is the obligation of the symbol, of its name and its file. -/
def ItemOf (symbol : SymbolDef) (item : Json) : Prop :=
  ∃ members fields, item = .obj members ∧ Python.get members "type" = .str "WIRING" ∧
    Python.get members "wiring" = .obj fields ∧
      Python.get fields "qualname" = .str symbol.qualname ∧
        Python.get fields "file" = .str symbol.path

theorem identified_of_valid {item : Json}
    (h : JsonSchema.Schema.accepts FeatureList.coverageItem item = true) : Identified item := by
  obtain ⟨members, id, rfl, hid⟩ := id_of_valid h
  rintro _ id' ⟨⟩ hid'
  obtain rfl := Option.some.inj (hid.symm.trans hid')
  exact ⟨.str id, rfl⟩

/-- No item of the model bears the name. -/
def Unborne (items : List Json) (qualname : String) : Prop :=
  ∀ item ∈ items, ¬Bears item (.str qualname)

theorem ItemOf.bears {symbol : SymbolDef} {item : Json} (h : ItemOf symbol item) :
    Bears item (.str symbol.qualname) := by
  obtain ⟨members, fields, rfl, -, hwiring, hqualname, -⟩ := h
  have htruthy : Python.truthy (Python.get members "wiring") = true := by
    rw [hwiring]
    cases fields with
    | nil => cases hqualname
    | cons field fields => rfl
  rw [Bears, qualKey_of_wiring hwiring htruthy, hqualname]
  rfl

/-- No item is the obligation of two symbols. -/
theorem ItemOf.unique {symbol other : SymbolDef} {item : Json} (h : ItemOf symbol item)
    (hother : ItemOf other item) : symbolKey symbol = symbolKey other := by
  obtain ⟨members, fields, rfl, -, hwiring, hqualname, hfile⟩ := h
  obtain ⟨_, fields', ⟨⟩, -, hwiring', hqualname', hfile'⟩ := hother
  obtain rfl := Json.obj.inj (hwiring.symm.trans hwiring')
  exact Prod.ext (Json.str.inj (hqualname.symm.trans hqualname'))
    (Json.str.inj (hfile.symm.trans hfile'))

/-- The file that an item of the analysis names. -/
def shownFile (file : String) : String := if file = "" then "<unknown>" else file

theorem itemOf_entryItem_iff {symbol : SymbolDef} {entry : WiringItem × ℕ} :
    ItemOf symbol (entryItem entry) ↔ entry.1.identity = symbol.qualname ∧
      shownFile entry.1.file = symbol.path := by
  constructor
  · rintro ⟨_, _, ⟨⟩, -, ⟨⟩, hqualname, hfile⟩
    exact ⟨Json.str.inj hqualname, Json.str.inj hfile⟩
  · rintro ⟨hqualname, hfile⟩
    exact ⟨_, _, rfl, rfl, rfl, congrArg Json.str hqualname, congrArg Json.str hfile⟩

/-- Every symbol has an item of its own in the model. -/
def Covered (run : Run) (file : Option Json) : Prop :=
  ∃ members items, loadModel file = some (members, items) ∧
    ∀ symbol ∈ run.symbols, ∃ item ∈ items, ItemOf symbol item

/-- What brings every symbol into the model: the sources can be read, and the items; no new name
stands at a place beyond three digits; and a symbol without an item is the first of a name that
no item bears. -/
structure Secured (run : Run) (items : List Json) : Prop where
  readable : ∀ path ∈ run.sourcePaths, ∀ exc, run.sources path ≠ .raises exc
  named : ∀ item ∈ items, Named item
  fits : ∀ place symbol, run.First place symbol → Unborne items symbol.qualname → place < 999
  first : ∀ symbol ∈ run.symbols, (∃ item ∈ items, ItemOf symbol item) ∨
    symbol.path ≠ "" ∧ Unborne items symbol.qualname ∧ ∃ place, run.First place symbol

theorem exists_analysis_iff (run : Run) :
    (∃ analysis, analyze run.sourcePaths run.sources = .ok analysis) ↔
      ∀ path ∈ run.sourcePaths, ∀ exc, run.sources path ≠ .raises exc := by
  have hpath (path : String) : (∃ model, parseFile path (run.sources path) = .ok model) ↔
      ∀ exc, run.sources path ≠ .raises exc := by
    cases run.sources path <;> simp [parseFile]
  simp only [← hpath]
  constructor
  · rintro ⟨analysis, hanalysis⟩ path hmem
    obtain ⟨models, hmodels, -⟩ := Outcome.bind_eq_ok_iff.mp hanalysis
    obtain ⟨model, -, hmodel⟩ := Outcome.exists_of_mapM_eq_ok hmodels path
      (List.mem_eraseDups.mpr hmem)
    exact ⟨model, hmodel⟩
  · intro h
    obtain ⟨models, hmodels⟩ := Outcome.mapM_eq_ok_of_forall fun path hmem ↦
      h path (List.mem_eraseDups.mp hmem)
    exact ⟨_, by rw [analyze, hmodels]; rfl⟩

section Appended

variable {run : Run} {analysis : Analysis} {members : List (String × Json)} {items : List Json}
  {quals : List Key}

theorem unborne_iff (hquals : existingKeys qualKey items = .ok quals) (qualname : String) :
    Key.str qualname ∉ quals ↔ Unborne items qualname := by
  rw [(existingKeys_ok hquals).2]
  simp only [Unborne, Bears, not_exists, not_and]

theorem validModel_new_iff (hkeys : (obligations analysis).map obligationKey =
    run.symbols.map symbolKey) (hquals : existingKeys qualKey items = .ok quals)
    (hvalid : validModel (.obj members) = true)
    (hlookup : members.lookup "items" = some (.arr items)) :
    validModel (extend members items
        ((newSymbols quals ((obligations analysis).zipIdx 1)).map entryItem)) = true ↔
      ∀ place symbol, run.First place symbol → Unborne items symbol.qualname → place < 999 := by
  rw [validModel_extend hvalid hlookup, List.forall_mem_map]
  simp only [entryItem, coverageItem_candidate, isItemId_itemId]
  constructor
  · intro h place symbol hfirst hunborne
    obtain ⟨item, hmem, -⟩ := exists_mem_of_first hkeys hfirst
      ((unborne_iff hquals symbol.qualname).mpr hunborne)
    have hplace := h (item, 1 + place) hmem
    dsimp only at hplace
    omega
  · intro h entry hentry
    obtain ⟨place, symbol, hfirst, hfresh, hplace, -⟩ := exists_first_of_mem hkeys hentry
    have hfits := h place symbol hfirst ((unborne_iff hquals symbol.qualname).mp hfresh)
    omega

theorem covered_new_iff (hkeys : (obligations analysis).map obligationKey =
    run.symbols.map symbolKey) (hquals : existingKeys qualKey items = .ok quals) :
    (∀ symbol ∈ run.symbols, ∃ item ∈ items ++
        (newSymbols quals ((obligations analysis).zipIdx 1)).map entryItem, ItemOf symbol item) ↔
      ∀ symbol ∈ run.symbols, (∃ item ∈ items, ItemOf symbol item) ∨
        symbol.path ≠ "" ∧ Unborne items symbol.qualname ∧ ∃ place, run.First place symbol := by
  constructor
  · intro h symbol hsymbol
    obtain ⟨item, hitem, hof⟩ := h symbol hsymbol
    rcases List.mem_append.mp hitem with hold | hnew
    · exact Or.inl ⟨item, hold, hof⟩
    obtain ⟨entry, hentry, rfl⟩ := List.mem_map.mp hnew
    obtain ⟨hqualname, hfile⟩ := itemOf_entryItem_iff.mp hof
    obtain ⟨place, other, hfirst, hfresh, -, hkey⟩ := exists_first_of_mem hkeys hentry
    obtain ⟨hname, hpath⟩ := Prod.mk.inj hkey
    have hunborne := (unborne_iff hquals other.qualname).mp hfresh
    have hother : other ∈ run.symbols := List.mem_of_getElem? hfirst.at_place
    -- A symbol without a path would have no item: an item of the analysis always names a file.
    have hsome : other.path ≠ "" := by
      intro hempty
      obtain ⟨item', hitem', hof'⟩ := h other hother
      rcases List.mem_append.mp hitem' with hold' | hnew'
      · exact hunborne item' hold' hof'.bears
      · obtain ⟨entry', -, rfl⟩ := List.mem_map.mp hnew'
        have hshown := (itemOf_entryItem_iff.mp hof').2
        rw [hempty, shownFile] at hshown
        split_ifs at hshown with hnone
        · exact absurd hshown (by decide)
        · exact hnone hshown
    rw [hpath, shownFile, if_neg hsome] at hfile
    obtain rfl := eq_of_symbolKey hother hsymbol (Prod.ext (hname.symm.trans hqualname) hfile)
    exact Or.inr ⟨hsome, hunborne, place, hfirst⟩
  · intro h symbol hsymbol
    rcases h symbol hsymbol with ⟨item, hold, hof⟩ | ⟨hsome, hunborne, place, hfirst⟩
    · exact ⟨item, List.mem_append_left _ hold, hof⟩
    · obtain ⟨item, hmem, hkey⟩ := exists_mem_of_first hkeys hfirst
        ((unborne_iff hquals symbol.qualname).mpr hunborne)
      obtain ⟨hname, hpath⟩ := Prod.mk.inj hkey
      refine ⟨_, List.mem_append_right _ (List.mem_map_of_mem hmem), ?_⟩
      rw [itemOf_entryItem_iff]
      exact ⟨hname, by rw [hpath, shownFile, if_neg hsome]⟩

end Appended

theorem covered_iff_secured {run : Run} {file : Option Json} {members : List (String × Json)}
    {items : List Json} (hmodel : loadModel file = some (members, items)) :
    Covered run file ↔ ∀ symbol ∈ run.symbols, ∃ item ∈ items, ItemOf symbol item := by
  refine ⟨?_, fun h ↦ ⟨members, items, hmodel, h⟩⟩
  rintro ⟨members', items', hmodel', h⟩
  obtain ⟨-, rfl⟩ := loadModel_inj hmodel hmodel'
  exact h

/-- After an ingestion that can write, every symbol has its item just when it had it before, or
all of them can be brought in. -/
theorem no_obligation_lost_iff {content : Json} (hvalid : validModel content = true) {run : Run}
    (hwritten : run.written = true) :
    Covered run (run.ingest validModel (some content)) ↔ Covered run (some content) ∨
      ∃ members items, loadModel (some content) = some (members, items) ∧ Secured run items := by
  obtain ⟨members, items, rfl, hlookup⟩ := items_of_valid hvalid
  have hmodel : loadModel (some (.obj members)) = some (members, items) := by
    simp [loadModel, Python.get, hlookup]
  by_cases happends : ∃ members' items' symbols, Appends validModel (some (.obj members)) run
    members' items' symbols
  · obtain ⟨members', items', symbols, happends⟩ := happends
    obtain ⟨rfl, rfl⟩ := loadModel_inj hmodel happends.model
    obtain ⟨analysis, quals, ids, hanalysis, hquals, hids, rfl⟩ := happends.analyzed
    have hkeys := obligationKeys_eq hanalysis
    rw [ingest_of_appends happends, covered_iff_secured (loadModel_extend members items _),
      covered_new_iff hkeys hquals, covered_iff_secured hmodel]
    constructor
    · intro h
      refine Or.inr ⟨members, items, hmodel, ?_, fun item hitem ↦ ?_, ?_, h⟩
      · exact (exists_analysis_iff run).mp ⟨analysis, hanalysis⟩
      · exact (named_iff item).mpr ((existingKeys_ok hquals).1 item hitem)
      · exact (validModel_new_iff hkeys hquals hvalid hlookup).mp happends.accepted
    · rintro (h | ⟨members', items', hmodel', hsecured⟩) symbol hsymbol
      · exact Or.inl (h symbol hsymbol)
      · obtain ⟨-, rfl⟩ := loadModel_inj hmodel hmodel'
        exact hsecured.first symbol hsymbol
  · rw [ingest_of_not_appends fun members' items' symbols h ↦
      happends ⟨members', items', symbols, h⟩]
    refine ⟨Or.inl, fun h ↦ h.elim id ?_⟩
    rintro ⟨members', items', hmodel', hsecured⟩
    obtain ⟨rfl, rfl⟩ := loadModel_inj hmodel hmodel'
    obtain ⟨analysis, hanalysis⟩ := (exists_analysis_iff run).mpr hsecured.readable
    have hkeys := obligationKeys_eq hanalysis
    obtain ⟨quals, hquals⟩ := exists_existingKeys fun item hitem ↦
      (named_iff item).mp (hsecured.named item hitem)
    obtain ⟨ids, hids⟩ := exists_existingKeys fun item hitem ↦ (identified_iff item).mp
      (identified_of_valid (((validModel_iff hlookup).mp hvalid).2 item hitem))
    have haccepted := (validModel_new_iff hkeys hquals hvalid hlookup).mpr hsecured.fits
    have hnone : newSymbols quals ((obligations analysis).zipIdx 1) = [] := by
      by_contra hsome
      exact happends ⟨members, items, _, hmodel, ⟨analysis, quals, ids, hanalysis, hquals, hids, rfl⟩,
        hsome, haccepted, hwritten⟩
    have hcovered := (covered_new_iff hkeys hquals).mpr hsecured.first
    rw [hnone, List.map_nil, List.append_nil] at hcovered
    exact (covered_iff_secured hmodel).mpr hcovered

/-! ## Two files that define one name -/

def sampleFunctions : Run where
  sourcePaths := ["a.py", "b.py"]
  sources := fun _ ↦ .parsed [sampleFunction "f" 1]
  written := true

theorem no_obligation_lost_sample :
    Covered sampleFunctions (sampleFunctions.ingest validModel (some sampleModel)) ↔
      Covered sampleFunctions (some sampleModel) ∨ ∃ members items,
        loadModel (some sampleModel) = some (members, items) ∧ Secured sampleFunctions items :=
  no_obligation_lost_iff (by decide +kernel) rfl

/-- The file that an item names. -/
def fileOf (item : Json) : Option Json := do
  let members ← item.object?
  let fields ← (Python.get members "wiring").object?
  return Python.get fields "file"

theorem fileOf_sampleFunctions :
    ((loadModel (sampleFunctions.ingest validModel (some sampleModel))).map fun model ↦
      model.2.map fileOf) = some [some (.str "a.py")] := by decide +kernel

/-- The function of the second file gets no item: the one of the first bears its name. -/
theorem same_name_is_lost :
    validModel sampleModel = true ∧
      ¬Covered sampleFunctions (sampleFunctions.ingest validModel (some sampleModel)) := by
  refine ⟨by decide +kernel, ?_⟩
  rintro ⟨members, items, hmodel, hcovered⟩
  have hsymbol : (⟨"f", "f", .function, "b.py", 1, false⟩ : SymbolDef) ∈ sampleFunctions.symbols :=
    List.mem_flatMap.mpr ⟨"b.py", by decide, mem_pathSymbols_iff.mpr
      ⟨_, rfl, by decide +kernel, rfl, List.mem_singleton_self _⟩⟩
  obtain ⟨item, hitem, members', fields, rfl, -, hwiring, -, hfile⟩ := hcovered _ hsymbol
  have hfiles := fileOf_sampleFunctions
  rw [hmodel, Option.map_some, Option.some.injEq] at hfiles
  have hmem := List.mem_map_of_mem (f := fileOf) hitem
  rw [hfiles, List.mem_singleton] at hmem
  simp [fileOf, Json.object?, hwiring, hfile] at hmem

end AgenticSDLC.WiringIngest
