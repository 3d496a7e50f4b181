import QueryForge.BuildError
import QueryForge.Select

/-!
# Building statements

Clauses that exclude each other are refused by the setters. `validate` checks the same rules on
statements from elsewhere, down to every nested one.
-/

namespace QueryForge.Select

def update (s : Select) (change : Clauses Select → Clauses Select) : Select :=
  .node (change s.clauses)

def empty : Select := .node {}

/-- The statement `SELECT columns FROM table`. -/
def simple (table : String) (columns : List ResultColumn) : Select :=
  .node { columns, fromItems := [.ofTable table] }

def selectOption (s : Select) : SelectOption := s.clauses.modifier.option

def distinctOn (s : Select) : Option Expr := s.clauses.modifier.distinctOn

def lockingClause (s : Select) : Option LockingClause := s.clauses.modifier.lockingClause

def groupBy (s : Select) : List Expr := s.clauses.groupBy

def setModifier (s : Select) (m : SelectModifier) : Select := s.update ({ · with modifier := m })

/-- The rule that a row lock and a GROUP BY list exclude each other. -/
def checkLocking (m : SelectModifier) (groupBy : List Expr) : Except BuildError Unit :=
  match m with
  | .locked clause => if groupBy.isEmpty then .ok () else .error (.lockingWithGroupBy clause)
  | .all | .distinct _ => .ok ()

/-- A call that may refuse. It reads and writes a statement, and what it wrote before it refuses
stays written. -/
abbrev Setter := ExceptT BuildError (StateM Select) Unit

namespace Setter

/-- The verdict on a call and the statement that it leaves behind. -/
def outcome (call : Setter) (s : Select) : Except BuildError Unit × Select := call s

/-- The statement that a call leaves behind, unless it refuses. -/
def result (call : Setter) (s : Select) : Except BuildError Select :=
  (call.outcome s).1.map fun _ => (call.outcome s).2

/-- A row lock refuses DISTINCT. ALL drops a DISTINCT ON expression and keeps a row lock. -/
def selectOption (option : SelectOption) : Setter := do
  let s ← get
  match option, s.clauses.modifier with
  | .distinct, .locked clause => throw (.lockingWithDistinct clause)
  | .distinct, .distinct _ => return
  | .distinct, .all => set (s.setModifier (.distinct none))
  | .all, .locked clause => set (s.setModifier (.locked clause))
  | .all, _ => set (s.setModifier .all)

def distinctOn (on : Expr) : Setter := do
  let s ← get
  match s.clauses.modifier with
  | .distinct _ => set (s.setModifier (.distinct (some on)))
  | _ => throw .distinctOnWithoutDistinct

/-- Removing the row lock always succeeds. -/
def lockingClause : Option LockingClause → Setter
  | none => do
    let s ← get
    match s.clauses.modifier with
    | .locked _ => set (s.setModifier .all)
    | _ => return
  | some clause => do
    let s ← get
    if s.selectOption = .distinct then throw (.lockingWithDistinct clause)
    if !s.groupBy.isEmpty then throw (.lockingWithGroupBy clause)
    set (s.setModifier (.locked clause))

def groupBy (groupBy : List Expr) : Setter := do
  let s ← get
  liftExcept (checkLocking s.clauses.modifier groupBy)
  set (s.update ({ · with groupBy }))

end Setter

def setSelectOption (s : Select) (option : SelectOption) : Except BuildError Select :=
  (Setter.selectOption option).result s

def setDistinctOn (s : Select) (on : Expr) : Except BuildError Select :=
  (Setter.distinctOn on).result s

def setLockingClause (s : Select) (clause : Option LockingClause) : Except BuildError Select :=
  (Setter.lockingClause clause).result s

def setGroupBy (s : Select) (groupBy : List Expr) : Except BuildError Select :=
  (Setter.groupBy groupBy).result s

def setWithClause (s : Select) (w : Option (WithClause Select)) : Select :=
  s.update ({ · with withClause := w })

def setColumns (s : Select) (columns : List ResultColumn) : Select :=
  s.update ({ · with columns })

def setWindowFunctions (s : Select) (functions : List (WindowFunction Expr)) : Select :=
  s.update ({ · with windowFunctions := functions })

def addWindowDefinition (s : Select) (name : String) (definition : WindowDefinition Expr) :
    Select :=
  s.update fun c => { c with windows := c.windows.put name definition }

def windowDefinition? (s : Select) (name : String) : Option (WindowDefinition Expr) :=
  s.clauses.windows.find? name

def setFromItems (s : Select) (items : List (FromItem Select)) : Select :=
  s.update ({ · with fromItems := items })

def setJoins (s : Select) (joins : List (Join Select)) : Select := s.update ({ · with joins })

def setFilter (s : Select) (filter : Option Expr) : Select := s.update ({ · with filter })

def setHaving (s : Select) (having : Option Expr) : Select := s.update ({ · with having })

def setOrderBy (s : Select) (terms : List (OrderTerm Expr)) : Select :=
  s.update ({ · with orderBy := terms })

def setLimit (s : Select) (limit : Option UInt64) : Select := s.update ({ · with limit })

def setOffset (s : Select) (offset : Option UInt64) : Select := s.update ({ · with offset })

/-- Puts a statement behind the last arm of this one. -/
def attach : Select → SetOperator → Select → Select
  | .node c@{ setOperation := some ⟨first, arm⟩, .. }, operator, next =>
    .node { c with setOperation := some ⟨first, arm.attach operator next⟩ }
  | .node c@{ setOperation := none, .. }, operator, next =>
    .node { c with setOperation := some ⟨operator, next⟩ }

def hasSetOperation (s : Select) : Bool := s.clauses.setOperation.isSome

/-- The rule of one statement, then the verdicts on its nested statements in their order. -/
def validateClauses (c : Clauses (Except BuildError Unit)) : Except BuildError Unit := do
  checkLocking c.modifier c.groupBy
  c.nested.forM id

def validate : Select → Except BuildError Unit := fold validateClauses

end QueryForge.Select
