import SatLab.Sheet.Table

/-!
The results in a text: the rows with few inconclusive instances, with their numbers as numbers.

How a text is read as a table, which cells of a column are small numbers and what a column is as
numbers is up to an engine. The results are what is asked of it, in this order.
-/

namespace SatLab

namespace Sheet

/-- What reads tables and works on their columns. -/
structure Engine where
  /-- The table of a text. -/
  read : List Char → Except SheetFault Table
  /-- The most rows of a text whose cells are typed together. -/
  portion : List Char → Nat
  /-- Which cells of a column are numbers within a limit. -/
  atMost : Int → List Cell → Except SheetFault (List Bool)
  /-- A column as numbers; what is no number is missing. -/
  toNumbers : List Cell → List Cell

/-- The most inconclusive instances a folder may have. -/
def inconclusiveLimit : Int := 25

/-- The columns that hold numbers. -/
def numericColumns : List String :=
  ["avg_time", "min_time", "max_time", "avg_mem", "min_mem", "max_mem", "decisions"]

namespace Engine

variable (e : Engine)

/-- The rows of a table that do not exceed a limit in a column. -/
def within (t : Table) (name : String) (limit : Int) : Except SheetFault Table := do
  let place ← t.place name
  return t.select (← e.atMost limit (t.column place))

/-- A table with a column as numbers. -/
def makeNumeric (t : Table) (name : String) : Except SheetFault Table := do
  let place ← t.place name
  return t.setColumn place (e.toNumbers (t.column place))

/-- The results in a text. -/
def results (text : List Char) : Except SheetFault Table := do
  numericColumns.foldlM e.makeNumeric
    (← e.within (← e.read text) "inconclusive" inconclusiveLimit)

end Engine

end Sheet

end SatLab
