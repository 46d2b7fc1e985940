import GoTrace.Trace.Run

/-!
# What is reported on the way

Making a trace reports each construct that is entered, in order, up to the event that fails if one
does, and then how it ended. A construct is reported before its position is looked at, so the last
one reported may be the one that fails; one that nests too deep is not reported.
-/

namespace GoTrace

/-- One report. -/
inductive LogRecord
  | entering (kind : NodeKind) (place : Offset) (depth : Nat)
  | done (size count : Nat)
  | failed (error : TraceError)

namespace LogRecord

/-- The level of a report. -/
def level : LogRecord → String
  | entering _ _ _ => "TRACE"
  | done _ _ | failed _ => "DEBUG"

/-- The words of a report. -/
def message : LogRecord → String
  | entering kind place depth => s!"Entering {kind.name} at byte {place.toNat} (depth {depth})."
  | done size count => s!"Fragmented {size} bytes into {count} fragments."
  | failed error => s!"Fragmenting failed: {error.message}"

/-- The report of an event. -/
def ofEvent (options : Options) : Event → List LogRecord
  | .enter kind place depth =>
    if options.maxDepth < depth then [] else [.entering kind place depth]
  | _ => []

end LogRecord

/-- The reports of some events, up to the first that fails. -/
def Cursor.log (options : Options) (table : LineTable) : List Event → Cursor → List LogRecord
  | [], _ => []
  | event :: events, c =>
    LogRecord.ofEvent options event ++
      match c.step options table event with
      | .error _ => []
      | .ok (_, c) => Cursor.log options table events c

/-- The reports of making the trace of a file. -/
def File.log (file : File) (table : LineTable) (options : Options) : List LogRecord :=
  (Cursor.atStart file.comments).log options table file.events ++
    match file.trace table options with
    | .ok fragments => [.done table.size fragments.length]
    | .error error => [.failed error]

end GoTrace
