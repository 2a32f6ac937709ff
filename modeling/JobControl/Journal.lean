import JobControl.Failure
import JobControl.Store.Mapping

/-! # The journal

Log records, the level below which they are left out, and the fields under which they are written.
`ν` is the type of the values that a record may carry. -/

namespace JobControl.Journal

inductive Severity where
  | debug
  | info
  | warning
  | error
  | critical
deriving DecidableEq, Repr

namespace Severity

def rank : Severity → Nat
  | debug => 10
  | info => 20
  | warning => 30
  | error => 40
  | critical => 50

def label : Severity → String
  | debug => "debug"
  | info => "info"
  | warning => "warning"
  | error => "error"
  | critical => "critical"

/-- Severities by name; two of them have a second one. -/
def ofName? : String → Option Severity
  | "DEBUG" => some debug
  | "INFO" => some info
  | "WARN" => some warning
  | "WARNING" => some warning
  | "ERROR" => some error
  | "CRITICAL" => some critical
  | "FATAL" => some critical
  | _ => none

end Severity

/-- The capital of a letter, where that is an ASCII letter. -/
def capital (c : Char) : Char :=
  if c = 'ı' then 'I' else if c = 'ſ' then 'S' else c.toUpper

/-- The rank from which on records are kept. A level that is not known counts as `INFO`, and one
name stands for a format and not for a level. -/
def threshold (level : Option String) : Except Failure Nat :=
  match String.ofList ((level.getD "").toList.map capital) with
  | "NOTSET" => .ok 0
  | "BASIC_FORMAT" => .error (.unknownLevel "%(levelname)s:%(name)s:%(message)s")
  | name => .ok ((Severity.ofName? name).getD .info).rank

structure Entry (ν : Type) where
  severity : Severity
  event : String
  extra : List (String × ν)
  /-- The jobs it was written in, outermost first: id and type. -/
  contexts : List (String × String)

/-- A field of a written record: a text, a value it carried, or the time of writing. -/
inductive Field (ν : Type) where
  | text (s : String)
  | given (v : ν)
  | time

variable {ν : Type}

/-- The fields of a record: what it carries takes precedence over its own fields, and those over the
job it was written in. -/
def Entry.fields (e : Entry ν) : Mapping String (Field ν) :=
  let m : Mapping String (Field ν) := match e.contexts.getLast? with
    | some (id, jobType) => ((∅ : Mapping String (Field ν)).insert "job_id" (.text id)).insert
        "job_type" (.text jobType)
    | none => ∅
  let m := (m.insert "event" (.text e.event)).insert "level" (.text e.severity.label)
  let m := e.extra.foldl (fun m f => m.insert f.1 (.given f.2)) m
  m.insert "timestamp" .time

def kept (threshold : Nat) (es : List (Entry ν)) : List (Entry ν) :=
  es.filter fun e => threshold ≤ e.severity.rank

/-- Whether records are written with all their fields, or as texts only. A format that is not given
is `json`. -/
def isStructured (format : Option String) : Bool := format.all (· == "json")

end JobControl.Journal
