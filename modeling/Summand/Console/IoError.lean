/-! What can go wrong while reading and writing. An error is its cause; the
category and the wording follow from it. -/
namespace Summand

/-- The cause of a failed read or write. -/
inductive IoError where
  /-- The writer refused. -/
  | writeFailed
  /-- The other end of the writer is gone. -/
  | pipeClosed
  /-- The writer took nothing although it was offered something. -/
  | writeZero
  /-- The writer was interrupted before it took anything. -/
  | interrupted
  /-- The writer could not pass on what it had taken. -/
  | flushFailed
  /-- The reader refused. -/
  | readFailed
  /-- A line is not text. -/
  | invalidUtf8
  deriving Repr, DecidableEq

namespace IoError

/-- The broad category of an error. -/
inductive Category where
  | other
  | brokenPipe
  | writeZero
  | interrupted
  | invalidData
  deriving Repr, DecidableEq

/-- The name a category prints under. -/
def Category.name : Category → String
  | other => "Other"
  | brokenPipe => "BrokenPipe"
  | writeZero => "WriteZero"
  | interrupted => "Interrupted"
  | invalidData => "InvalidData"

/-- The category of an error. -/
def category : IoError → Category
  | .writeFailed => .other
  | .pipeClosed => .brokenPipe
  | .writeZero => .writeZero
  | .interrupted => .interrupted
  | .flushFailed => .other
  | .readFailed => .other
  | .invalidUtf8 => .invalidData

/-- The wording of an error. -/
def message : IoError → String
  | .writeFailed => "write failed"
  | .pipeClosed => "pipe closed"
  | .writeZero => "failed to write whole buffer"
  | .interrupted => "interrupted"
  | .flushFailed => "flush failed"
  | .readFailed => "read failed"
  | .invalidUtf8 => "stream did not contain valid UTF-8"

end IoError
end Summand
