import DumpConversion.Conversion.Failure
import DumpConversion.Database.Statement

/-! # Execution of statements

* `Database.execute`: the effect of one statement, or why it fails.
* `Database.executeAll`: the effect of statements in order.
-/

namespace DumpConversion

set_option autoImplicit false

/-- The start of the names that no statement may give to a table. -/
def protectedStart : Text := "sqlite_".toList

/-- The first of a list of names that comes again later, whatever the case. -/
def repeatedName? : List Text → Option Text
  | [] => none
  | n :: rest => if foldCase n ∈ rest.map foldCase then some n else repeatedName? rest

namespace SchemaObject

/-- The object with one more row, if it is the table of that name. -/
def addRow (name : Text) (row : List Value) : SchemaObject → SchemaObject
  | table t =>
    if foldCase t.name = foldCase name then table { t with rows := t.rows ++ [row] } else table t
  | view n => view n

end SchemaObject

namespace Database

/-- Makes a table. -/
def createTable (d : Database) (name : Text) (columns : List Column) :
    Except DatabaseFault Database :=
  if protectedStart.isPrefixOf (foldCase name) then .error (.reservedName name)
  else if (d.find? name).isSome then .error (.nameTaken name)
  else match repeatedName? (columns.map Column.name) with
    | some column => .error (.duplicateColumn column)
    | none => .ok ⟨d.objects ++ [.table ⟨name, columns, []⟩]⟩

/-- The first required column to which a null is given. -/
def refusedNull? (columns : List Column) (row : List Value) : Option Column :=
  ((columns.zip row).find? fun cell => cell.1.required && cell.2 == Value.null).map (·.1)

/-- Adds a row to a table. -/
def insert (d : Database) (name : Text) (row : List Value) : Except DatabaseFault Database :=
  match (d.find? name).bind SchemaObject.table? with
  | none => .error (.noTable name)
  | some t =>
    if row.length ≠ t.columns.length then
      .error (.valueCount t.name t.columns.length row.length)
    else match refusedNull? t.columns row with
      | some column => .error (.nullValue t.name column.name)
      | none => .ok ⟨d.objects.map (SchemaObject.addRow name row)⟩

/-- The effect of a statement. -/
def execute (d : Database) : Statement → Except DatabaseFault Database
  | .createTable name columns => d.createTable name columns
  | .insert name row => d.insert name row

/-- The effect of statements in order. -/
def executeAll : Database → List Statement → Except DatabaseFault Database
  | d, [] => .ok d
  | d, s :: rest =>
    match d.execute s with
    | .ok d => executeAll d rest
    | .error e => .error e

/-! ## Small lemmas -/

theorem executeAll_append (d : Database) (ss ts : List Statement) :
    d.executeAll (ss ++ ts) = (d.executeAll ss).bind fun d => d.executeAll ts := by
  induction ss generalizing d with
  | nil => rfl
  | cons s ss ih =>
    simp only [List.cons_append, executeAll]
    cases d.execute s with
    | ok d => exact ih d
    | error e => rfl

end Database

end DumpConversion
