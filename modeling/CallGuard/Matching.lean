import CallGuard.Descriptor.Printer
import CallGuard.Event
import CallGuard.Fault
import CallGuard.Value.Basic

/-!
# Matching values against descriptors

`Descriptor.accepts` decides whether a value belongs to a descriptor; the only way for it to fail is
to reach `NoReturn`. Parts are tried in order, and no further than the answer needs.
`Descriptor.admitsType` is the same question about a type instead of a value, which the subtype rule
for `Type[X]` asks. `Descriptor.decisions` lists the decisions of a match, inner ones first.
-/

namespace CallGuard.Descriptor

mutual
/-- Whether the type `t` satisfies a descriptor. Containers only ask for the container type, and
a reference to types asks for the type of types. -/
def admitsType : Descriptor → Ty → Except Misuse Bool
  | any, _ => .ok true
  | noReturn, _ => .error .noReturnMatched
  | none, t => .ok (t == .builtin .none)
  | union ds, t => someAdmitsType ds t
  | list, t => .ok (t.isSubtype (.builtin .list))
  | listOf _, t => .ok (t.isSubtype (.builtin .list))
  | tuple _, t => .ok (t.isSubtype (.builtin .tuple))
  | dict, t => .ok (t.isSubtype (.builtin .dict))
  | dictOf _ _, t => .ok (t.isSubtype (.builtin .dict))
  | freeVar _, _ => .ok true
  | boundedVar _ bound, t => admitsType bound t
  | typeRef, t => .ok (t == .builtin .type)
  | typeRefTo _, t => .ok (t == .builtin .type)
  | wildcard, _ => .ok true
  | callable _ _, t => .ok (t.isSubtype (.builtin .function))
  | forward _, _ => .ok true
  | nominal u, t => .ok (t.isSubtype u)

/-- Whether the type `t` satisfies one of the descriptors. -/
def someAdmitsType : List Descriptor → Ty → Except Misuse Bool
  | [], _ => .ok false
  | d :: ds, t => do
    if ← admitsType d t then return true
    someAdmitsType ds t
end

mutual
/-- Whether a value belongs to a descriptor under a rule for `Type[X]`. -/
def accepts (rule : TypeRefRule) : Descriptor → Value → Except Misuse Bool
  | any, _ => .ok true
  | noReturn, _ => .error .noReturnMatched
  | none, v =>
    match v with
    | .none => .ok true
    | _ => .ok false
  | union ds, v => someAccepts rule ds v
  | list, v =>
    match v with
    | .list _ => .ok true
    | _ => .ok false
  | listOf d, v =>
    match v with
    | .list items => items.allM fun item => accepts rule d item
    | _ => .ok false
  | tuple ds, v =>
    match v with
    | .tuple items =>
      if ds.isEmpty then .ok true
      else if items.length = ds.length then eachAccepts rule ds items
      else .ok false
    | _ => .ok false
  | dict, v =>
    match v with
    | .dict _ => .ok true
    | _ => .ok false
  | dictOf k d, v =>
    match v with
    | .dict entries => entries.allM fun entry => do
      if ← accepts rule k entry.1 then accepts rule d entry.2 else return false
    | _ => .ok false
  | freeVar _, _ => .ok true
  | boundedVar _ bound, v => accepts rule bound v
  | typeRef, v =>
    match v with
    | .type _ => .ok true
    | _ => .ok false
  | typeRefTo inner, v =>
    match v with
    | .type t =>
      match rule with
      | .subtype => admitsType inner t
      | .legacy => accepts rule inner (.type t)
    | _ => .ok false
  | wildcard, _ => .ok true
  | callable _ _, v =>
    match v with
    | .callable _ => .ok true
    | _ => .ok false
  | forward _, _ => .ok true
  | nominal t, v => .ok (v.isInstance t)

/-- Whether a value belongs to one of the descriptors. -/
def someAccepts (rule : TypeRefRule) : List Descriptor → Value → Except Misuse Bool
  | [], _ => .ok false
  | d :: ds, v => do
    if ← accepts rule d v then return true
    someAccepts rule ds v

/-- Whether values belong to descriptors place by place. -/
def eachAccepts (rule : TypeRefRule) : List Descriptor → List Value → Except Misuse Bool
  | d :: ds, v :: vs => do
    if ← accepts rule d v then eachAccepts rule ds vs else return false
  | _, _ => .ok true
end

/-- The decision about a value itself. A match that fails decides nothing. -/
def decision (rule : TypeRefRule) (d : Descriptor) (v : Value) : List Event :=
  match accepts rule d v with
  | .ok matched => [.decided d.text v.typeName matched]
  | .error _ => []

/-- The events of the items up to the first one that is not accepted. -/
def eventsUntil {α : Type} (accepted : α → Except Misuse Bool) (events : α → List Event) :
    List α → List Event
  | [] => []
  | a :: as =>
    match accepted a with
    | .ok true => events a ++ eventsUntil accepted events as
    | _ => events a

mutual
/-- The decisions of matching a value, in the order in which they are made. -/
def decisions (rule : TypeRefRule) : Descriptor → Value → List Event
  | union ds, v => someDecisions rule ds v ++ decision rule (union ds) v
  | listOf d, v =>
    (match v with
    | .list items => eventsUntil (accepts rule d) (fun item => decisions rule d item) items
    | _ => []) ++ decision rule (listOf d) v
  | tuple ds, v =>
    (match v with
    | .tuple items => if items.length = ds.length then eachDecisions rule ds items else []
    | _ => []) ++ decision rule (tuple ds) v
  | dictOf k d, v =>
    (match v with
    | .dict entries =>
      eventsUntil
        (fun entry => do if ← accepts rule k entry.1 then accepts rule d entry.2 else return false)
        (fun entry =>
          match accepts rule k entry.1 with
          | .ok true => decisions rule k entry.1 ++ decisions rule d entry.2
          | _ => decisions rule k entry.1)
        entries
    | _ => []) ++ decision rule (dictOf k d) v
  | boundedVar n bound, v => decisions rule bound v ++ decision rule (boundedVar n bound) v
  | typeRefTo inner, v =>
    (match v, rule with
    | .type t, .legacy => decisions rule inner (.type t)
    | _, _ => []) ++ decision rule (typeRefTo inner) v
  | d, v => decision rule d v

/-- The decisions about the members of a union up to the first that accepts. -/
def someDecisions (rule : TypeRefRule) : List Descriptor → Value → List Event
  | [], _ => []
  | d :: ds, v =>
    match accepts rule d v with
    | .ok false => decisions rule d v ++ someDecisions rule ds v
    | _ => decisions rule d v

/-- The decisions about values place by place up to the first that is not accepted. -/
def eachDecisions (rule : TypeRefRule) : List Descriptor → List Value → List Event
  | d :: ds, v :: vs =>
    match accepts rule d v with
    | .ok true => decisions rule d v ++ eachDecisions rule ds vs
    | _ => decisions rule d v
  | _, _ => []
end

end CallGuard.Descriptor
