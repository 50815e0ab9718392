import AgenticSDLC.Foundations.Dict
import AgenticSDLC.Foundations.Paths
import AgenticSDLC.Foundations.Python
import Mathlib.Data.List.Infix

/-!
# The wiring checker

`tools/wiring_checker.py`: the definitions and the references of each file, the symbols of
the repository that are reached, and the candidate items for them.  A syntax tree is what
the visitor sees of `ast`: a node has its children in the order of `ast.iter_child_nodes`,
and what a visit does not look at is left out.  The sets are lists that are only asked for
their members.
-/

namespace AgenticSDLC.WiringChecker

open Python (Exception)

def wiringReqPrefix : String := "REQ-WIRE"

def handlerDecoratorHints : List String :=
  ["route", "get", "post", "put", "patch", "delete", "head", "options", "websocket", "command",
    "callback", "handler", "on_event", "task", "listen", "subscribe", "hook", "fixture"]

/-! ## File classification -/

def isTestPath (path : String) : Bool :=
  let norm := path.toList.map fun c ↦ if c = '\\' then '/' else c
  let parts := norm.splitOn '/'
  let base := parts.getLast?.getD []
  let segments := (parts.filter (· ≠ [])).dropLast
  segments.any (fun segment ↦ segment = "tests".toList || segment = "test".toList) ||
    base = "conftest.py".toList || ("test_".toList.isPrefixOf base && ".py".toList.isSuffixOf base) ||
    "_test.py".toList.isSuffixOf base

/-! ## Syntax trees -/

/-- A node of a syntax tree.  `FunctionDef` stands for its asynchronous form too; a name is
loaded, or stored or deleted. -/
inductive Node where
  | functionDef (name : String) (lineno : ℕ) (args body decorators rest : List Node)
  | classDef (name : String) (lineno : ℕ) (bases keywords body decorators typeParams : List Node)
  | name (id : String) (load : Bool)
  | attribute (value : Node) (attr : String)
  | call (func : Node) (args : List Node)
  | importStmt
  | other (children : List Node)

inductive Kind where
  | function
  | method
  | cls
  deriving DecidableEq

def Kind.text : Kind → String
  | function => "function"
  | method => "method"
  | cls => "class"

structure SymbolDef where
  name : String
  qualname : String
  kind : Kind
  path : String
  lineno : ℕ
  decorated : Bool

structure FileModel where
  path : String
  isTest : Bool
  defs : List (String × SymbolDef)
  referencedNames : List String
  entryQualnames : List String
  parseError : Option String

def FileModel.new (path : String) : FileModel where
  path := path
  isTest := isTestPath path
  defs := []
  referencedNames := []
  entryQualnames := []
  parseError := none

def FileModel.refer (model : FileModel) (names : List String) : FileModel :=
  { model with referencedNames := model.referencedNames ++ names }

def FileModel.enter (model : FileModel) (qualnames : List String) : FileModel :=
  { model with entryQualnames := model.entryQualnames ++ qualnames }

def dottedTail (node : Node) : String :=
  match node with
  | .call func _ => tail func
  | node => tail node
where
  tail : Node → String
    | .attribute _ attr => attr
    | .name id _ => id
    | _ => ""

/-- Only letters that are ASCII can be part of a hint. -/
def isHandlerDecorator (decName : String) : Bool :=
  handlerDecoratorHints.any fun hint ↦ hint.toList <:+: (Text.asciiLower decName).toList

/-! ## The visitor -/

def qual (scope : List String) (name : String) : String := ".".intercalate (scope ++ [name])

def FileModel.recordDef (model : FileModel) (scope : List String) (name : String) (kind : Kind)
    (lineno : ℕ) (decorators : List Node) : FileModel :=
  if name = "" then model
  else
    let qualname := qual scope name
    let decs := decorators.map dottedTail
    let decorated := decs.any isHandlerDecorator
    let symbol : SymbolDef := ⟨name, qualname, kind, model.path, lineno, decorated⟩
    let model := { model with defs := Dict.set qualname symbol model.defs }
    let model := if decorated && !model.isTest then model.enter [qualname] else model
    model.refer (decs.filter (· ≠ ""))

mutual

/-- The visit of a node below the definitions of `scope`. -/
def visit (scope : List String) (classDepth : ℕ) : Node → FileModel → FileModel
  | .functionDef name lineno args body decorators rest, model =>
      let kind := if classDepth = 0 then Kind.function else .method
      let model := model.recordDef scope name kind lineno decorators
      let model := visitAll (scope ++ [name]) classDepth args model
      let model := visitAll (scope ++ [name]) classDepth body model
      let model := visitAll (scope ++ [name]) classDepth decorators model
      visitAll (scope ++ [name]) classDepth rest model
  | .classDef name lineno bases keywords body decorators typeParams, model =>
      let model := model.recordDef scope name .cls lineno decorators
      let model := model.refer (bases.map dottedTail)
      let model := visitAll (scope ++ [name]) (classDepth + 1) bases model
      let model := visitAll (scope ++ [name]) (classDepth + 1) keywords model
      let model := visitAll (scope ++ [name]) (classDepth + 1) body model
      let model := visitAll (scope ++ [name]) (classDepth + 1) decorators model
      visitAll (scope ++ [name]) (classDepth + 1) typeParams model
  | .name id load, model => if load then model.refer [id] else model
  | .attribute value attr, model =>
      let model := model.refer [attr]
      let model := match value with
        | .name id _ => model.refer [id]
        | _ => model
      visit scope classDepth value model
  | .call func args, model =>
      let model := match func with
        | .name id _ => model.refer [id]
        | .attribute _ attr => model.refer [attr]
        | _ => model
      visitAll scope classDepth args (visit scope classDepth func model)
  | .importStmt, model => model
  | .other children, model => visitAll scope classDepth children model

def visitAll (scope : List String) (classDepth : ℕ) : List Node → FileModel → FileModel
  | [], model => model
  | node :: nodes, model => visitAll scope classDepth nodes (visit scope classDepth node model)

end

/-! ## Entry points -/

mutual

/-- The node and what is below it. -/
def walk : Node → List Node
  | .functionDef name lineno args body decorators rest =>
      .functionDef name lineno args body decorators rest ::
        walkAll args ++ walkAll body ++ walkAll decorators ++ walkAll rest
  | .classDef name lineno bases keywords body decorators typeParams =>
      .classDef name lineno bases keywords body decorators typeParams ::
        walkAll bases ++ walkAll keywords ++ walkAll body ++ walkAll decorators ++
          walkAll typeParams
  | .name id load => [.name id load]
  | .attribute value attr => .attribute value attr :: walk value
  | .call func args => .call func args :: walk func ++ walkAll args
  | .importStmt => [.importStmt]
  | .other children => .other children :: walkAll children

def walkAll : List Node → List Node
  | [] => []
  | node :: nodes => walk node ++ walkAll nodes

end

def refName : Node → Option String
  | .name id true => some id
  | .attribute _ attr => some attr
  | .call (.name id _) _ => some id
  | .call (.attribute _ attr) _ => some attr
  | _ => none

/-- A statement that runs with the module and is no definition and no import. -/
def runsWithModule : Node → Bool
  | .functionDef .. | .classDef .. | .importStmt => false
  | _ => true

def seedModuleLevelEntrypoints (body : List Node) (model : FileModel) : FileModel :=
  if model.isTest then model
  else
    let refs := (walkAll (body.filter runsWithModule)).filterMap refName
    model.enter (refs.flatMap fun ref ↦
      if ref = "" then []
      else (model.defs.filter fun item ↦ item.2.name = ref).map fun item ↦ item.2.qualname)

/-- What reading and parsing a path comes to; `raises` is what neither of the two handlers
catches, such as a text that is not UTF-8. -/
inductive Source where
  | unreadable (detail : String)
  | syntaxError (lineno msg : String)
  | raises (exc : Exception)
  | parsed (body : List Node)

def parseFile (path : String) : Source → Except Exception FileModel
  | .unreadable detail => .ok { FileModel.new path with parseError := some ("read-error: " ++ detail) }
  | .syntaxError lineno msg =>
      .ok { FileModel.new path with
        parseError := some ("syntax-error: line " ++ lineno ++ ": " ++ msg) }
  | .raises exc => .error exc
  | .parsed body =>
      .ok (seedModuleLevelEntrypoints body (visitAll [] 0 body (FileModel.new path)))

/-! ## Reachability -/

structure DeadCode where
  symbol : String
  qualname : String
  kind : Kind
  file : String
  line : ℕ
  reason : String

/-- A wiring obligation; a file that does not parse has one without a symbol. -/
structure WiringItem where
  symbol : Option String
  qualname : Option String
  kind : Option Kind
  file : String
  line : ℕ
  reachable : Option Bool
  entryPoint : Bool
  reason : String

structure Analysis where
  wiringItems : List WiringItem
  deadCode : List DeadCode

section Analyze

variable (models : List FileModel)

def repoReferenced : List String := models.flatMap FileModel.referencedNames

def repoEntryQualnames : List String := models.flatMap FileModel.entryQualnames

def repoEntryNames : List String :=
  models.flatMap fun model ↦
    (model.defs.filter fun item ↦ item.2.qualname ∈ repoEntryQualnames models).map fun item ↦
      item.2.name

def isReached (model : FileModel) (symbol : SymbolDef) : Bool :=
  symbol.qualname ∈ model.entryQualnames || symbol.decorated ||
    symbol.name ∈ repoReferenced models || symbol.name ∈ repoEntryNames models

def unreachedReason (symbol : SymbolDef) : String :=
  symbol.kind.text ++ " '" ++ symbol.qualname ++ "' is defined but never referenced " ++
    "from any real execution path in the analyzed set"

def wiringItem (model : FileModel) (symbol : SymbolDef) : WiringItem where
  symbol := some symbol.name
  qualname := some symbol.qualname
  kind := some symbol.kind
  file := symbol.path
  line := symbol.lineno
  reachable := some (isReached models model symbol)
  entryPoint := isReached models model symbol &&
    (symbol.qualname ∈ model.entryQualnames || symbol.decorated)
  reason := if isReached models model symbol then "reachable from a real execution path"
    else unreachedReason symbol

def parseErrorItem (path reason : String) : WiringItem where
  symbol := none
  qualname := none
  kind := none
  file := path
  line := 0
  reachable := none
  entryPoint := false
  reason := reason

def wiringItems (model : FileModel) : List WiringItem :=
  match model.parseError with
  | some reason => [parseErrorItem model.path reason]
  | none =>
      if model.isTest then [] else model.defs.map fun item ↦ wiringItem models model item.2

def deadCode (model : FileModel) : List DeadCode :=
  match model.parseError with
  | some _ => []
  | none =>
      if model.isTest then []
      else (model.defs.filter fun item ↦ !isReached models model item.2).map fun item ↦
        ⟨item.2.name, item.2.qualname, item.2.kind, item.2.path, item.2.lineno,
          unreachedReason item.2⟩

end Analyze

/-- `analyze`, over what each path reads as. -/
def analyze (sourcePaths : List String) (sources : String → Source) : Except Exception Analysis := do
  let models ← sourcePaths.eraseDups.mapM fun path ↦ parseFile path (sources path)
  return ⟨models.flatMap (wiringItems models), models.flatMap (deadCode models)⟩

/-! ## Candidate items -/

/-- `f"{ordinal:03d}"`. -/
def ordinalText (ordinal : ℕ) : String :=
  let digits := Nat.toDigits 10 ordinal
  String.ofList (List.replicate (3 - digits.length) '0' ++ digits)

def itemId (ordinal : ℕ) : String := wiringReqPrefix ++ "-" ++ ordinalText ordinal

theorem ofDigitChars_ordinalText (ordinal : ℕ) :
    Nat.ofDigitChars 10 (ordinalText ordinal).toList 0 = ordinal := by
  rw [ordinalText, String.toList_ofList, Nat.ofDigitChars_append, Nat.ofDigitChars_replicate_zero,
    Nat.mul_zero, Nat.ofDigitChars_ten_toDigits]

theorem ordinalText_injective : Function.Injective ordinalText := by
  intro m n h
  rw [← ofDigitChars_ordinalText m, h, ofDigitChars_ordinalText]

theorem itemId_injective : Function.Injective itemId := by
  intro m n h
  apply ordinalText_injective
  exact (String.append_right_inj _).mp h

def isObligation (item : WiringItem) : Bool := item.symbol.getD "" ≠ "" && item.kind.isSome

def obligations (analysis : Analysis) : List WiringItem := analysis.wiringItems.filter isObligation

/-- The name an obligation goes by. -/
def WiringItem.identity (item : WiringItem) : String :=
  let qualname := item.qualname.getD ""
  if qualname = "" then item.symbol.getD "" else qualname

def candidate (ordinal : ℕ) (item : WiringItem) : List (String × Json) :=
  let file := if item.file = "" then "<unknown>" else item.file
  let qualname := item.identity
  [("id", .str (itemId ordinal)), ("type", .str "WIRING"), ("priority", .int 1),
    ("dependencies", .arr []),
    ("acceptance_criteria", .arr [.str ("Symbol '" ++ qualname ++ "' in " ++ file ++
      " is reachable from a real execution path and exercised by an integration test " ++
      "(evidence_kind == 'integration').")]),
    ("status", .str "unproven"), ("in_scope", .bool true),
    ("title", .str ("Wire '" ++ qualname ++ "' into a real execution path")),
    ("ears_statement", .str ("WHILE the system is running, THE platform SHALL reach '" ++
      qualname ++ "' (defined in " ++ file ++ ") from a real execution path proven by an " ++
      "integration test.")),
    ("wiring", .obj [("symbol", .str (item.symbol.getD "")), ("qualname", .str qualname),
      ("file", .str file), ("line", .int item.line),
      ("reachable", item.reachable.elim .null .bool), ("source", .str "wiring_checker.py")])]

def emitWiringItems (analysis : Analysis) : List Json :=
  ((obligations analysis).zipIdx 1).map fun (item, ordinal) ↦ .obj (candidate ordinal item)

end AgenticSDLC.WiringChecker
