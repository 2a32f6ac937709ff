import JobControl.Input
import JobControl.Job.Basic

/-! # Messages and jobs from input fields -/

namespace JobControl

namespace Message

def read (place : String) (fields : List (String × Value)) : Checked (Message Timestamp) :=
  Message.mk
    <$> (Reader.member Level.ofLabel?).required place fields "level"
    <*> Reader.time.required place fields "timestamp"
    <*> Reader.text.required place fields "message"

def reader : Reader (Message Timestamp)
  | place, .record fields => read place fields
  | place, _ => .fault place .notRecord

def ofFields (fields : List (String × Value)) : Except Failure (Message Timestamp) :=
  (read "" fields).toExcept

end Message

/-- A job from its fields. The name of its type is not checked here. -/
def Job.ofFields (fields : List (String × Value)) : Except Failure (Job Timestamp) :=
  open Reader in
  Checked.toExcept <|
    Job.mk
      <$> text.required "" fields "job_id"
      <*> text.required "" fields "job_type"
      <*> time.required "" fields "started"
      <*> time.required "" fields "last_updated"
      <*> (nullable time).optional "" fields "stopped" none
      <*> (member Status.ofLabel?).optional "" fields "status" .ok
      <*> text.required "" fields "hostname"
      <*> (listOf Message.reader).optional "" fields "messages" []

end JobControl
