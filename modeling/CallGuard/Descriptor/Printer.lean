import CallGuard.Descriptor.Basic

/-!
# The text of a descriptor

The name under which a descriptor appears in messages and events.
-/

namespace CallGuard.Descriptor

mutual
/-- The descriptor as text. -/
def text : Descriptor → String
  | any => "Any"
  | noReturn => "NoReturn"
  | none => "None"
  | union ds => "Union[" ++ texts ds ++ "]"
  | list => "List"
  | listOf d => "List[" ++ text d ++ "]"
  | tuple [] => "Tuple"
  | tuple ds => "Tuple[" ++ texts ds ++ "]"
  | dict => "Dict"
  | dictOf k v => "Dict[" ++ text k ++ ": " ++ text v ++ "]"
  | freeVar n => n
  | boundedVar n d => n ++ ": " ++ text d
  | typeRef => "Type"
  | typeRefTo d => "Type[" ++ text d ++ "]"
  | wildcard => "type"
  | callable ps r => "Callable[[" ++ texts ps ++ "], " ++ text r ++ "]"
  | forward n => n
  | nominal t => t.name

/-- The descriptors as text, with a comma and a space between two of them. -/
def texts : List Descriptor → String
  | [] => ""
  | [d] => text d
  | d :: ds => text d ++ ", " ++ texts ds
end

end CallGuard.Descriptor
