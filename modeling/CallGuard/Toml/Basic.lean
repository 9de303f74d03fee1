/-!
# Tables of settings

What a TOML document says: named items, some of which are tables. A document is a list of lines, and
`Entries.ofLines?` puts them together. A name is set once. A table is given by its header, by the
dotted keys inside it or all at once in braces, and what was given in one of these ways is not
extended in another; a table that was only a step on the way to another header may still get its
own.
-/

namespace CallGuard.Toml

/-- How a table came to be. -/
inductive Origin where
  /-- By a header of its own. -/
  | header
  /-- As a step on the way to a header further in. -/
  | step
  /-- By a key with dots. -/
  | dotted
  /-- In braces, all at once. -/
  | inline
  deriving DecidableEq

/-- What stands under a name. -/
inductive Item where
  | bool (b : Bool)
  | text (s : String)
  | integer (n : Int)
  /-- A floating-point number, a date or a time: no setting has such a value. -/
  | other
  | array (items : List Item)
  | table (origin : Origin) (entries : List (String × Item))
  /-- Tables under one header in double brackets: those before the latest, and the latest. -/
  | tables (earlier : List (List (String × Item))) (latest : List (String × Item))

/-- The named items of a table. -/
abbrev Entries := List (String × Item)

/-- Whether an item is an array or a table without contents. -/
def Item.isEmpty : Item → Bool
  | array [] => true
  | table _ [] => true
  | _ => false

/-- The header of a section. Each repetition of a repeated header begins another table. -/
structure Header where
  repeated : Bool
  path : List String

/-- What one line of a document says. -/
inductive Line where
  | blank
  | setting (key : List String) (item : Item)
  | header (h : Header)

/-- Settings that stand together, in order. -/
abbrev Settings := List (List String × Item)

/-- The settings before the first header, and those after each header. -/
def sections : List Line → Settings × List (Header × Settings)
  | [] => ([], [])
  | .blank :: lines => sections lines
  | .setting key item :: lines =>
    let (first, rest) := sections lines
    ((key, item) :: first, rest)
  | .header h :: lines =>
    let (first, rest) := sections lines
    ([], (h, first) :: rest)

namespace Entries

/-- The entries with an item under this name, in place of any before it. -/
def put (name : String) (item : Item) : Entries → Entries
  | [] => [(name, item)]
  | (n, i) :: rest => if n = name then (name, item) :: rest else (n, i) :: put name item rest

/-- The entries with one more item. All parts of its key but the last name tables, which are made
if they are missing. The item goes into a table of dotted keys or into the table at hand, where its
name is not taken. -/
def set (item : Item) : (key : List String) → Entries → Option Entries
  | [], _ => none
  | [name], es => if (es.lookup name).isSome then none else some (es.put name item)
  | name :: rest, es =>
    match es.lookup name with
    | none => do return es.put name (.table .dotted (← set item rest []))
    | some (.table .dotted inner) => do
      return es.put name (.table .dotted (← set item rest inner))
    | some (.table .step inner) =>
      if rest.length = 1 then none
      else do return es.put name (.table .step (← set item rest inner))
    | some (.tables earlier latest) =>
      if rest.length = 1 then none
      else do return es.put name (.tables earlier (← set item rest latest))
    | some _ => none

/-- The entries with all of these items, set in order. -/
def setAll (es : Entries) (settings : Settings) : Option Entries :=
  settings.foldlM (fun es (key, item) => es.set item key) es

/-- The entries with the table that a header begins, which `fill` fills. It is reached through
tables of any kind but those in braces, and through the latest of several tables. -/
def enter (repeated : Bool) (fill : Entries → Option Entries) :
    (path : List String) → Entries → Option Entries
  | [], _ => none
  | [name], es =>
    match repeated, es.lookup name with
    | false, none => do return es.put name (.table .header (← fill []))
    | false, some (.table .step inner) => do return es.put name (.table .header (← fill inner))
    | true, none => do return es.put name (.tables [] (← fill []))
    | true, some (.tables earlier latest) => do
      return es.put name (.tables (latest :: earlier) (← fill []))
    | _, _ => none
  | name :: rest, es =>
    match es.lookup name with
    | none => do return es.put name (.table .step (← enter repeated fill rest []))
    | some (.table .inline _) => none
    | some (.table origin inner) => do
      return es.put name (.table origin (← enter repeated fill rest inner))
    | some (.tables earlier latest) => do
      return es.put name (.tables earlier (← enter repeated fill rest latest))
    | some _ => none

/-- The entries of a document with these lines, unless the lines contradict each other. -/
def ofLines? (lines : List Line) : Option Entries := do
  let (first, rest) := sections lines
  let root ← setAll [] first
  rest.foldlM (fun es (h, settings) => es.enter h.repeated (setAll · settings) h.path) root

end Entries

end CallGuard.Toml
