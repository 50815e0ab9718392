import AgenticSDLC.Wiring.WiringChecker

/-!
# What the visitor collects

The definitions and the references of a syntax tree, each reference with the definition whose
body it stands in, compared with the tables that a visit fills.  Decorators, bases and
arguments are evaluated where a definition stands; only its body is its own.
-/

namespace AgenticSDLC.WiringChecker

structure Definition where
  name : String
  qualname : String
  handler : Bool

/-- A bare name, and the innermost definition whose body it stands in, if any. -/
structure Reference where
  owner : Option String
  name : String

def defined (scope : List String) (name : String) (decorators : List Node) : List Definition :=
  if name = "" then []
  else [⟨name, qual scope name, (decorators.map dottedTail).any isHandlerDecorator⟩]

def referred (owner : Option String) (names : List String) : List Reference :=
  names.map fun name ↦ ⟨owner, name⟩

/-- The name that an attribute is taken of, where that is a plain one. -/
def rootName : Node → List String
  | .name id _ => [id]
  | _ => []

def calleeName : Node → List String
  | .name id _ => [id]
  | .attribute _ attr => [attr]
  | _ => []

/-- The decorators that a definition is recorded with. -/
def decoratorNames (name : String) (decorators : List Node) : List String :=
  if name = "" then [] else (decorators.map dottedTail).filter (· ≠ "")

mutual

def definitions (scope : List String) : Node → List Definition
  | .functionDef name _ args body decorators rest =>
      defined scope name decorators ++ definitionsAll (scope ++ [name]) args ++
        definitionsAll (scope ++ [name]) body ++ definitionsAll (scope ++ [name]) decorators ++
          definitionsAll (scope ++ [name]) rest
  | .classDef name _ bases keywords body decorators typeParams =>
      defined scope name decorators ++ definitionsAll (scope ++ [name]) bases ++
        definitionsAll (scope ++ [name]) keywords ++ definitionsAll (scope ++ [name]) body ++
          definitionsAll (scope ++ [name]) decorators ++ definitionsAll (scope ++ [name]) typeParams
  | .name _ _ => []
  | .attribute value _ => definitions scope value
  | .call func args => definitions scope func ++ definitionsAll scope args
  | .importStmt => []
  | .other children => definitionsAll scope children

def definitionsAll (scope : List String) : List Node → List Definition
  | [] => []
  | node :: nodes => definitions scope node ++ definitionsAll scope nodes

end

mutual

def references (scope : List String) (owner : Option String) : Node → List Reference
  | .functionDef name _ args body decorators rest =>
      referred owner (decoratorNames name decorators) ++ referencesAll (scope ++ [name]) owner args ++
        referencesAll (scope ++ [name]) (some (qual scope name)) body ++
          referencesAll (scope ++ [name]) owner decorators ++
            referencesAll (scope ++ [name]) owner rest
  | .classDef name _ bases keywords body decorators typeParams =>
      referred owner (decoratorNames name decorators) ++ referred owner (bases.map dottedTail) ++
        referencesAll (scope ++ [name]) owner bases ++
          referencesAll (scope ++ [name]) owner keywords ++
            referencesAll (scope ++ [name]) (some (qual scope name)) body ++
              referencesAll (scope ++ [name]) owner decorators ++
                referencesAll (scope ++ [name]) owner typeParams
  | .name id load => if load then [⟨owner, id⟩] else []
  | .attribute value attr =>
      referred owner [attr] ++ referred owner (rootName value) ++ references scope owner value
  | .call func args =>
      referred owner (calleeName func) ++ references scope owner func ++
        referencesAll scope owner args
  | .importStmt => []
  | .other children => referencesAll scope owner children

def referencesAll (scope : List String) (owner : Option String) : List Node → List Reference
  | [] => []
  | node :: nodes => references scope owner node ++ referencesAll scope owner nodes

end

/-! ## What a visit adds -/

/-- A visit adds these references and these definitions to the tables of a file. -/
structure Collects (refs : List Reference) (defs : List Definition) (before after : FileModel) :
    Prop where
  path : after.path = before.path
  isTest : after.isTest = before.isTest
  parseError : after.parseError = before.parseError
  referenced : after.referencedNames = before.referencedNames ++ refs.map Reference.name
  added : ∀ item ∈ after.defs, item ∈ before.defs ∨ ∃ definition ∈ defs,
    item.1 = definition.qualname ∧ item.2.qualname = definition.qualname ∧
      item.2.name = definition.name ∧ item.2.decorated = definition.handler ∧
        item.2.path = before.path
  keys : (before.defs.map Prod.fst).Nodup → (after.defs.map Prod.fst).Nodup
  entries : ∀ qualname ∈ before.entryQualnames, qualname ∈ after.entryQualnames
  handlers : before.isTest = false → ∀ definition ∈ defs, definition.handler = true →
    definition.qualname ∈ after.entryQualnames

theorem Collects.refl (model : FileModel) : Collects [] [] model model where
  path := rfl
  isTest := rfl
  parseError := rfl
  referenced := (List.append_nil _).symm
  added := fun _ hitem ↦ Or.inl hitem
  keys := id
  entries := fun _ hqualname ↦ hqualname
  handlers := fun _ _ h ↦ absurd h List.not_mem_nil

theorem Collects.refer (model : FileModel) (owner : Option String) (names : List String) :
    Collects (referred owner names) [] model (model.refer names) where
  path := rfl
  isTest := rfl
  parseError := rfl
  referenced := by simp [FileModel.refer, referred, Function.comp_def]
  added := fun _ hitem ↦ Or.inl hitem
  keys := id
  entries := fun _ hqualname ↦ hqualname
  handlers := fun _ _ h ↦ absurd h List.not_mem_nil

theorem Collects.trans {refs refs' : List Reference} {defs defs' : List Definition}
    {before middle after : FileModel} (h : Collects refs defs before middle)
    (h' : Collects refs' defs' middle after) :
    Collects (refs ++ refs') (defs ++ defs') before after where
  path := h'.path.trans h.path
  isTest := h'.isTest.trans h.isTest
  parseError := h'.parseError.trans h.parseError
  referenced := by rw [h'.referenced, h.referenced, List.map_append, List.append_assoc]
  added := by
    intro item hitem
    rcases h'.added item hitem with hmiddle | ⟨definition, hdefinition, hsame⟩
    · rcases h.added item hmiddle with hbefore | ⟨definition, hdefinition, hsame⟩
      · exact Or.inl hbefore
      · exact Or.inr ⟨definition, List.mem_append_left _ hdefinition, hsame⟩
    · rw [h.path] at hsame
      exact Or.inr ⟨definition, List.mem_append_right _ hdefinition, hsame⟩
  keys := fun hbefore ↦ h'.keys (h.keys hbefore)
  entries := fun qualname hqualname ↦ h'.entries qualname (h.entries qualname hqualname)
  handlers := by
    intro hcode definition hdefinition hhandler
    rcases List.mem_append.mp hdefinition with hfirst | hlast
    · exact h'.entries _ (h.handlers hcode definition hfirst hhandler)
    · exact h'.handlers (h.isTest.trans hcode) definition hlast hhandler

/-- A definition goes to the table of definitions, and a handler to the entry points. -/
theorem Collects.define (model : FileModel) (symbol : SymbolDef) (hpath : symbol.path = model.path) :
    Collects [] [⟨symbol.name, symbol.qualname, symbol.decorated⟩] model
      (if symbol.decorated && !model.isTest then
        FileModel.enter { model with defs := Dict.set symbol.qualname symbol model.defs }
          [symbol.qualname]
      else { model with defs := Dict.set symbol.qualname symbol model.defs }) := by
  have hadded : ∀ item ∈ Dict.set symbol.qualname symbol model.defs, item ∈ model.defs ∨
      ∃ definition ∈ [(⟨symbol.name, symbol.qualname, symbol.decorated⟩ : Definition)],
        item.1 = definition.qualname ∧ item.2.qualname = definition.qualname ∧
          item.2.name = definition.name ∧ item.2.decorated = definition.handler ∧
            item.2.path = model.path := by
    intro item hitem
    rcases Dict.mem_of_mem_set hitem with rfl | hold
    · exact Or.inr ⟨_, List.mem_singleton_self _, rfl, rfl, rfl, rfl, hpath⟩
    · exact Or.inl hold
  split_ifs with henters
  · exact {
      path := rfl
      isTest := rfl
      parseError := rfl
      referenced := (List.append_nil _).symm
      added := hadded
      keys := Dict.nodup_set symbol.qualname symbol
      entries := fun _ hqualname ↦ List.mem_append_left _ hqualname
      handlers := by
        intro _ definition hdefinition _
        rw [List.mem_singleton.mp hdefinition]
        exact List.mem_append_right _ (List.mem_singleton_self _) }
  · exact {
      path := rfl
      isTest := rfl
      parseError := rfl
      referenced := (List.append_nil _).symm
      added := hadded
      keys := Dict.nodup_set symbol.qualname symbol
      entries := fun _ hqualname ↦ hqualname
      handlers := by
        intro hcode definition hdefinition hhandler
        rw [List.mem_singleton.mp hdefinition] at hhandler
        have hdecorated : symbol.decorated = true := hhandler
        rw [hdecorated, hcode] at henters
        exact absurd rfl henters }

theorem Collects.recordDef (model : FileModel) (scope : List String) (owner : Option String)
    (name : String) (kind : Kind) (lineno : ℕ) (decorators : List Node) :
    Collects (referred owner (decoratorNames name decorators)) (defined scope name decorators) model
      (model.recordDef scope name kind lineno decorators) := by
  rw [decoratorNames, defined, FileModel.recordDef]
  split_ifs with hname
  · exact Collects.refl model
  · exact (Collects.define model ⟨name, qual scope name, kind, model.path, lineno,
      (decorators.map dottedTail).any isHandlerDecorator⟩ rfl).trans (Collects.refer _ owner _)

theorem Collects.root (model : FileModel) (owner : Option String) (value : Node) :
    Collects (referred owner (rootName value)) [] model
      (match value with
        | .name id _ => model.refer [id]
        | _ => model) := by
  cases value with
  | name id load => exact Collects.refer model owner [id]
  | _ => exact Collects.refl model

theorem Collects.callee (model : FileModel) (owner : Option String) (func : Node) :
    Collects (referred owner (calleeName func)) [] model
      (match func with
        | .name id _ => model.refer [id]
        | .attribute _ attr => model.refer [attr]
        | _ => model) := by
  rw [calleeName.eq_def]
  split
  · exact Collects.refer model owner _
  · exact Collects.refer model owner _
  · exact Collects.refl model

mutual

theorem collects_visit (scope : List String) (classDepth : ℕ) (owner : Option String) :
    ∀ (node : Node) (model : FileModel),
      Collects (references scope owner node) (definitions scope node) model
        (visit scope classDepth node model)
  | .functionDef name lineno args body decorators rest, model => by
      have hrecord := Collects.recordDef model scope owner name
        (if classDepth = 0 then Kind.function else .method) lineno decorators
      have hargs := hrecord.trans (collects_visitAll (scope ++ [name]) classDepth owner args _)
      have hbody := hargs.trans (collects_visitAll (scope ++ [name]) classDepth
        (some (qual scope name)) body _)
      have hdecorators := hbody.trans
        (collects_visitAll (scope ++ [name]) classDepth owner decorators _)
      rw [references, definitions, visit]
      exact hdecorators.trans (collects_visitAll (scope ++ [name]) classDepth owner rest _)
  | .classDef name lineno bases keywords body decorators typeParams, model => by
      have hrecord := Collects.recordDef model scope owner name .cls lineno decorators
      have hnames := hrecord.trans (Collects.refer _ owner (bases.map dottedTail))
      rw [List.append_nil] at hnames
      have hbases := hnames.trans
        (collects_visitAll (scope ++ [name]) (classDepth + 1) owner bases _)
      have hkeywords := hbases.trans
        (collects_visitAll (scope ++ [name]) (classDepth + 1) owner keywords _)
      have hbody := hkeywords.trans (collects_visitAll (scope ++ [name]) (classDepth + 1)
        (some (qual scope name)) body _)
      have hdecorators := hbody.trans
        (collects_visitAll (scope ++ [name]) (classDepth + 1) owner decorators _)
      rw [references, definitions, visit]
      exact hdecorators.trans
        (collects_visitAll (scope ++ [name]) (classDepth + 1) owner typeParams _)
  | .name id load, model => by
      rw [references, definitions, visit]
      cases load with
      | false => exact Collects.refl model
      | true => exact Collects.refer model owner [id]
  | .attribute value attr, model => by
      have hroot := (Collects.refer model owner [attr]).trans (Collects.root _ owner value)
      rw [references, definitions]
      exact hroot.trans (collects_visit scope classDepth owner value _)
  | .call func args, model => by
      have hfunc := (Collects.callee model owner func).trans
        (collects_visit scope classDepth owner func _)
      rw [references, definitions]
      exact hfunc.trans (collects_visitAll scope classDepth owner args _)
  | .importStmt, model => Collects.refl model
  | .other children, model => by
      rw [references, definitions, visit]
      exact collects_visitAll scope classDepth owner children model

theorem collects_visitAll (scope : List String) (classDepth : ℕ) (owner : Option String) :
    ∀ (nodes : List Node) (model : FileModel),
      Collects (referencesAll scope owner nodes) (definitionsAll scope nodes) model
        (visitAll scope classDepth nodes model)
  | [], model => Collects.refl model
  | node :: nodes, model => by
      rw [referencesAll, definitionsAll, visitAll]
      exact (collects_visit scope classDepth owner node model).trans
        (collects_visitAll scope classDepth owner nodes _)

end

/-! ## The table of a file -/

/-- The table of a file that parses. -/
def modelOf (path : String) (body : List Node) : FileModel :=
  seedModuleLevelEntrypoints body (visitAll [] 0 body (FileModel.new path))

/-- What the module-level code adds to the table: entry points alone. -/
theorem seed_eq (body : List Node) (model : FileModel) :
    ∃ entries, seedModuleLevelEntrypoints body model =
      { model with entryQualnames := model.entryQualnames ++ entries } := by
  rw [seedModuleLevelEntrypoints]
  split_ifs
  · exact ⟨[], by rw [List.append_nil]⟩
  · exact ⟨_, rfl⟩

/-- The table of a file has its references and its definitions. -/
theorem collects_modelOf (path : String) (body : List Node) :
    Collects (referencesAll [] none body) (definitionsAll [] body) (FileModel.new path)
      (modelOf path body) := by
  obtain ⟨entries, hseed⟩ := seed_eq body (visitAll [] 0 body (FileModel.new path))
  have hvisit := collects_visitAll [] 0 none body (FileModel.new path)
  rw [modelOf, hseed]
  exact {
    path := hvisit.path
    isTest := hvisit.isTest
    parseError := hvisit.parseError
    referenced := hvisit.referenced
    added := hvisit.added
    keys := hvisit.keys
    entries := fun qualname hqualname ↦
      List.mem_append_left _ (hvisit.entries qualname hqualname)
    handlers := fun hcode definition hdefinition hhandler ↦
      List.mem_append_left _ (hvisit.handlers hcode definition hdefinition hhandler) }

theorem isTest_modelOf (path : String) (body : List Node) :
    (modelOf path body).isTest = isTestPath path := (collects_modelOf path body).isTest

theorem parseError_modelOf (path : String) (body : List Node) :
    (modelOf path body).parseError = none := (collects_modelOf path body).parseError

theorem referencedNames_modelOf (path : String) (body : List Node) :
    (modelOf path body).referencedNames = (referencesAll [] none body).map Reference.name :=
  (collects_modelOf path body).referenced

/-- Each symbol of a file stands under its own qualified name. -/
theorem nodup_modelOf (path : String) (body : List Node) :
    ((modelOf path body).defs.map Prod.fst).Nodup :=
  (collects_modelOf path body).keys List.nodup_nil

theorem definition_of_mem {path : String} {body : List Node} {item : String × SymbolDef}
    (h : item ∈ (modelOf path body).defs) :
    ∃ definition ∈ definitionsAll [] body, item.1 = definition.qualname ∧
      item.2.qualname = definition.qualname ∧ item.2.name = definition.name ∧
        item.2.decorated = definition.handler ∧ item.2.path = path := by
  rcases (collects_modelOf path body).added item h with hnew | hdefinition
  · cases hnew
  · exact hdefinition

/-! ## Names -/

theorem qual_ne_empty (scope : List String) {name : String} (h : name ≠ "") :
    qual scope name ≠ "" := by
  rw [qual]
  by_cases hscope : scope = []
  · rwa [hscope, List.nil_append, String.intercalate_singleton]
  · rw [String.intercalate_append_of_ne_nil hscope (List.cons_ne_nil _ _),
      String.intercalate_singleton]
    intro hempty
    exact h (String.append_eq_empty_iff.mp hempty).2

/-- A definition that is recorded has a name. -/
def Definition.Named (definition : Definition) : Prop :=
  definition.name ≠ "" ∧ definition.qualname ≠ ""

theorem named_of_mem_defined {scope : List String} {name : String} {decorators : List Node}
    {definition : Definition} (h : definition ∈ defined scope name decorators) :
    definition.Named := by
  rw [defined] at h
  split_ifs at h with hname
  · cases h
  · rw [List.mem_singleton.mp h]
    exact ⟨hname, qual_ne_empty scope hname⟩

mutual

theorem named_definitions (scope : List String) :
    ∀ node : Node, ∀ definition ∈ definitions scope node, definition.Named
  | .functionDef name _ args body decorators rest, definition, h => by
      simp only [definitions, List.mem_append] at h
      rcases h with (((hdefined | hargs) | hbody) | hdecorators) | hrest
      · exact named_of_mem_defined hdefined
      · exact named_definitionsAll _ args definition hargs
      · exact named_definitionsAll _ body definition hbody
      · exact named_definitionsAll _ decorators definition hdecorators
      · exact named_definitionsAll _ rest definition hrest
  | .classDef name _ bases keywords body decorators typeParams, definition, h => by
      simp only [definitions, List.mem_append] at h
      rcases h with ((((hdefined | hbases) | hkeywords) | hbody) | hdecorators) | hparams
      · exact named_of_mem_defined hdefined
      · exact named_definitionsAll _ bases definition hbases
      · exact named_definitionsAll _ keywords definition hkeywords
      · exact named_definitionsAll _ body definition hbody
      · exact named_definitionsAll _ decorators definition hdecorators
      · exact named_definitionsAll _ typeParams definition hparams
  | .name _ _, definition, h => by simp [definitions] at h
  | .attribute value _, definition, h => by
      rw [definitions] at h
      exact named_definitions scope value definition h
  | .call func args, definition, h => by
      rw [definitions, List.mem_append] at h
      rcases h with hfunc | hargs
      · exact named_definitions scope func definition hfunc
      · exact named_definitionsAll scope args definition hargs
  | .importStmt, definition, h => by simp [definitions] at h
  | .other children, definition, h => by
      rw [definitions] at h
      exact named_definitionsAll scope children definition h

theorem named_definitionsAll (scope : List String) :
    ∀ nodes : List Node, ∀ definition ∈ definitionsAll scope nodes, definition.Named
  | [], definition, h => by simp [definitionsAll] at h
  | node :: nodes, definition, h => by
      rw [definitionsAll, List.mem_append] at h
      rcases h with hnode | hnodes
      · exact named_definitions scope node definition hnode
      · exact named_definitionsAll scope nodes definition hnodes

end

theorem symbol_of_mem {path : String} {body : List Node} {item : String × SymbolDef}
    (h : item ∈ (modelOf path body).defs) :
    item.1 = item.2.qualname ∧ item.2.path = path ∧ item.2.name ≠ "" ∧ item.2.qualname ≠ "" := by
  obtain ⟨definition, hdefinition, hkey, hqualname, hname, -, hpath⟩ := definition_of_mem h
  obtain ⟨hsome, hqualified⟩ := named_definitionsAll [] body definition hdefinition
  exact ⟨hkey.trans hqualname.symm, hpath, by rwa [hname], by rwa [hqualname]⟩

end AgenticSDLC.WiringChecker
