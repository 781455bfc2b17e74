/-
# TOML values

The values of a settings file, and the tree that its statements build up. While a file
is read, a table remembers how it came to be: by a header of its own, as a part of the
name in another header, or by a dotted key. A table with its own header is complete and
may not be opened again; the other two may still grow.
-/

import QuoteBoard.Binary64.Rounding

namespace QuoteBoard.Toml

/-- A value of a settings file. -/
inductive Value where
  | text (s : String)
  | integer (i : Int)
  | float (x : Binary64)
  | boolean (b : Bool)
  /-- A date, a time of day, or both, as written. -/
  | moment (s : String)
  | array (items : List Value)
  | table (fields : List (String × Value))

/-- How a table came to be. -/
inductive Origin where
  | header
  | implied
  | dotted
  deriving DecidableEq

/-- What a name stands for while a file is read. A value written in one piece, an inline table
included, is closed. -/
inductive Item where
  | closed (v : Value)
  | table (origin : Origin) (fields : List (String × Item))
  | tables (elements : List (List (String × Item)))

/-- The names of a table with what they stand for. -/
abbrev Fields := List (String × Item)

/-- Let a name stand for something else, or for something at all. -/
def setField (fields : Fields) (name : String) (item : Item) : Fields :=
  if fields.any (·.1 == name) then fields.map fun f => if f.1 = name then (name, item) else f
  else fields ++ [(name, item)]

/-- Change the table at the end of a path, tables on the way springing up where there are none.
Through an array of tables the path leads to its last element. A dotted path may not pass
through a table that has a header. -/
def changeAt (dotted : Bool) (change : Origin → Fields → Option Fields) (origin : Origin)
    (fields : Fields) : List String → Option Fields
  | [] => change origin fields
  | name :: path =>
    match fields.lookup name with
    | none => do
      let springs := if dotted then Origin.dotted else .implied
      let inner ← changeAt dotted change springs [] path
      return setField fields name (.table springs inner)
    | some (.closed _) => none
    | some (.table o inner) =>
      if dotted ∧ o = .header then none
      else do
        let inner ← changeAt dotted change o inner path
        return setField fields name (.table o inner)
    | some (.tables elements) =>
      match elements.getLast? with
      | none => none
      | some last => do
        let last ← changeAt dotted change .header last path
        return setField fields name (.tables (elements.dropLast ++ [last]))

/-- Give a name to a value in the table at the end of a dotted path. The name must be new, and
the path may only lead to tables that dotted keys made. -/
def addPair (path : List String) (name : String) (v : Value) (fields : Fields) : Option Fields :=
  changeAt true (fun origin fields =>
    if (path ≠ [] ∧ origin ≠ .dotted) ∨ fields.any (·.1 == name) then none
    else some (setField fields name (.closed v))) .header fields path

/-- Open a table by its header. -/
def openTable (path : List String) (name : String) (fields : Fields) : Option Fields :=
  changeAt false (fun _ fields =>
    match fields.lookup name with
    | none => some (setField fields name (.table .header []))
    | some (.table .implied inner) => some (setField fields name (.table .header inner))
    | _ => none) .header fields path

/-- Open the next table of an array by its header. -/
def openElement (path : List String) (name : String) (fields : Fields) : Option Fields :=
  changeAt false (fun _ fields =>
    match fields.lookup name with
    | none => some (setField fields name (.tables [[]]))
    | some (.tables elements) => some (setField fields name (.tables (elements ++ [[]])))
    | _ => none) .header fields path

mutual

/-- The value that an item has become. -/
def Item.value : Item → Value
  | .closed v => v
  | .table _ fields => .table (fieldValues fields)
  | .tables elements => .array (elementValues elements)

/-- The values of a table's names. -/
def fieldValues : List (String × Item) → List (String × Value)
  | [] => []
  | (name, item) :: rest => (name, item.value) :: fieldValues rest

/-- The values of an array's tables. -/
def elementValues : List (List (String × Item)) → List Value
  | [] => []
  | fields :: rest => .table (fieldValues fields) :: elementValues rest

end

/-- A statement of a settings file. -/
inductive Statement where
  | header (path : List String) (name : String)
  | elementHeader (path : List String) (name : String)
  | pair (path : List String) (name : String) (v : Value)

/-- Carry out statements in order, the later ones within the table that was opened last. -/
def assembleFrom (current : List String) (fields : Fields) : List Statement → Option Fields
  | [] => some fields
  | .header path name :: rest => do
    assembleFrom (path ++ [name]) (← openTable path name fields) rest
  | .elementHeader path name :: rest => do
    assembleFrom (path ++ [name]) (← openElement path name fields) rest
  | .pair path name v :: rest => do
    assembleFrom current
      (← changeAt false (fun _ fields => addPair path name v fields) .header fields current) rest

/-- The fields of the whole file. -/
def assemble (statements : List Statement) : Option (List (String × Value)) :=
  (assembleFrom [] [] statements).map fieldValues

/-- The fields of an inline table. -/
def inlineFields (pairs : List (List String × String × Value)) : Option (List (String × Value)) :=
  (pairs.foldlM (fun fields (path, name, v) => addPair path name v fields) []).map fieldValues

end QuoteBoard.Toml
