import StagedFormat.ExitStatus
import StagedFormat.Text.Number
import StagedFormat.Text.Quoted
import StagedFormat.Text.Split
import StagedFormat.Text.WhiteSpace

/-! A daemon's reply: the exit code on the first line, and the text after it. -/

namespace StagedFormat.Daemon

structure Reply where
  code : Int32
  body : String
  deriving DecidableEq, Repr

namespace Reply

def of (status : ExitStatus) (body : String) : Reply := { code := Int32.ofNat status.code, body }

def status (reply : Reply) : Option ExitStatus := ExitStatus.ofCode? reply.code.toInt

def wire (reply : Reply) : String := toString reply.code.toInt ++ "\n" ++ reply.body

/-- Reads a reply; a first line that is no code of 32 bits is the error. -/
def parse (raw : String) : Except String Reply :=
  let (code, body) := (Text.splitOnce '\n' raw.toList).getD (raw.toList, [])
  match Text.readInt 0x80000000 0x7FFFFFFF (Text.trim code) with
  | .ok code => .ok { code := Int32.ofInt code, body := String.ofList body }
  | .error _ => .error ("bad exit code in response: " ++ (String.ofList code).quoted)

end Reply

end StagedFormat.Daemon
