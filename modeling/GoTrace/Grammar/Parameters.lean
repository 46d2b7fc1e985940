import GoTrace.Grammar.ParseError
import GoTrace.Layout.OfSyntax

/-!
# Grouping parameters

Between the brackets of a parameter list stand entries with commas behind them, each a type with or
without a name in front. Read alone, the `a` of `a, b int` is an entry without a name whose type is
`a`. Only when the list is complete is it clear whether such an entry is a type or a name: if any
entry has a name, all have, and an entry that looks like a lone type is a name that shares the type
of a later entry.
-/

namespace GoTrace

/-- An entry of a parameter list. -/
structure ParamEntry where
  /-- The name in front of the type. -/
  name? : Option Ident
  /-- The type, or a name that is still taken for one. -/
  type : Expr
  /-- The comma behind the type. -/
  comma? : Option Offset

namespace ParamEntry

/-- The field of an entry without a name. -/
def unnamed (entry : ParamEntry) : Field := ⟨[], [], entry.type, none⟩

/-- Groups the entries of a list in which some have names. The names `names`, with the commas behind
them, wait for the entry whose type they share. -/
def groupNamed : List ParamEntry → (names : List Ident) → (commas : List Offset) →
    Except ParseError (List Field × List Offset)
  | [], names, _ =>
    match names.getLast? with
    | some name => .error ⟨.missingParameterType, name.span⟩
    | none => .ok ([], [])
  | ⟨some name, type, comma?⟩ :: entries, names, commas => do
    let (fields, separators) ← groupNamed entries [] []
    pure (⟨names ++ [name], commas, type, none⟩ :: fields, comma?.toList ++ separators)
  | ⟨none, .ident name, comma?⟩ :: entries, names, commas =>
    groupNamed entries (names ++ [name]) (commas ++ comma?.toList)
  | ⟨none, type, _⟩ :: _, _, _ => .error ⟨.mixedParameters, type.span⟩

/-- The fields that the entries of a parameter list stand for, and the commas between them. -/
def group (entries : List ParamEntry) : Except ParseError (List Field × List Offset) :=
  if entries.all (·.name?.isNone) then
    .ok (entries.map unnamed, entries.filterMap (·.comma?))
  else groupNamed entries [] []

end ParamEntry

end GoTrace
