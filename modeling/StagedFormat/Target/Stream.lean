import StagedFormat.Target.Workspace

/-! Streams as targets: standard input that is answered on standard output. -/

namespace StagedFormat

def streamName : String := "<stdin>"

namespace Stream

/-- Reads the whole input once and keeps it. -/
def read (stream : Stream) : Except TargetError String × Stream :=
  match stream.kept with
  | some text => (.ok text, stream)
  | none =>
    let taken := { stream with input := none }
    match stream.input with
    | some { failure := some cause, .. } => (.error (.io ⟨streamName⟩ cause), taken)
    | source =>
      let bytes := (source.map StreamInput.bytes).getD ByteArray.empty
      match String.fromUTF8? bytes with
      | some text => (.ok text, { taken with kept := some text })
      | none => (.error (.notText streamName), taken)

def write (stream : Stream) (content : String) : Except TargetError Unit × Stream :=
  let called := { stream with calls := stream.calls + 1 }
  match stream.refuses called.calls with
  | some cause => (.error (.stream streamName cause), called)
  | none => (.ok (), { called with accepted := stream.accepted ++ [content], hasWritten := true })

/-- Sends the kept text on unchanged, unless something was written. -/
def replay (stream : Stream) : Except TargetError Unit × Stream :=
  match stream.hasWritten, stream.kept with
  | false, some text => stream.write text
  | _, _ => (.ok (), stream)

end Stream

end StagedFormat
