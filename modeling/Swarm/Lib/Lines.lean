import Swarm.Lib.Utf8

namespace Swarm

/-- The Unicode `White_Space` property. -/
def isWhitespace (c : Char) : Bool :=
  let n := c.toNat
  (9 ≤ n && n ≤ 13) || n == 0x20 || n == 0x85 || n == 0xA0 || n == 0x1680 || (0x2000 ≤ n && n ≤ 0x200A) ||
    n == 0x2028 || n == 0x2029 || n == 0x202F || n == 0x205F || n == 0x3000

/-- Nothing is left of the text after trimming. -/
def isBlank (text : List Char) : Bool := text.all isWhitespace

/-- One line of a byte stream, with whether a line feed ended it. -/
structure Line where
  bytes : List UInt8
  ended : Bool
  deriving DecidableEq, Repr

namespace Line

/-- Cut a stream after every line feed. A stream that ends in a line feed has
no further, empty line. `started` holds the bytes of the current line, last first. -/
def splitFrom (started : List UInt8) : List UInt8 → List Line
  | [] => if started.isEmpty then [] else [⟨started.reverse, false⟩]
  | byte :: rest =>
    if byte = 10 then ⟨started.reverse, true⟩ :: splitFrom [] rest else splitFrom (byte :: started) rest

def split (stream : List UInt8) : List Line := splitFrom [] stream

/-- The text of a line: strict UTF-8, without the line feed and one carriage
return before it. A carriage return at the end of the stream stays. -/
def read (line : Line) : Option (List Char) :=
  (Utf8.decode line.bytes).map (fun text =>
    if line.ended && text.getLast? == some '\r' then text.dropLast else text)

theorem splitFrom_append {line : List UInt8} (oneLine : (10 : UInt8) ∉ line) (started rest : List UInt8) :
    splitFrom started (line ++ rest) = splitFrom (line.reverse ++ started) rest := by
  induction line generalizing started with
  | nil => rfl
  | cons byte line ih =>
    rw [List.mem_cons, not_or] at oneLine
    rw [List.cons_append, splitFrom, if_neg (Ne.symm oneLine.1), ih oneLine.2]
    simp

@[simp] theorem split_nil : split [] = [] := rfl

theorem split_ended {line : List UInt8} (oneLine : (10 : UInt8) ∉ line) (rest : List UInt8) :
    split (line ++ 10 :: rest) = ⟨line, true⟩ :: split rest := by
  rw [split, splitFrom_append oneLine, splitFrom, if_pos rfl]
  simp [split]

theorem split_open {line : List UInt8} (oneLine : (10 : UInt8) ∉ line) (nonempty : line ≠ []) :
    split line = [⟨line, false⟩] := by
  have cut := splitFrom_append oneLine [] []
  simp only [List.append_nil] at cut
  rw [split, cut, splitFrom]
  simp [nonempty]

theorem read_open (text : List Char) : read ⟨Utf8.encode text, false⟩ = some text := by
  simp [read]

theorem read_ended {text : List Char} (noReturn : text.getLast? ≠ some '\r') :
    read ⟨Utf8.encode text, true⟩ = some text := by
  simp [read, noReturn]

theorem read_invalid {bytes : List UInt8} (ended : Bool) (invalid : Utf8.decode bytes = none) :
    read ⟨bytes, ended⟩ = none := by
  simp [read, invalid]

end Line

end Swarm
