import Scaffold.Document.Equality
import Scaffold.Document.Printer

/-!
The log of a run. What a run has to say are entries, each told to a logger, which decides what
becomes of it. What loggers have made of the entries of a run that fails is kept.
-/
namespace Scaffold
namespace Log

inductive Level where
  | debug
  | info
  | warn
  | error
  deriving DecidableEq, Repr

namespace Level

def all : List Level := [debug, info, warn, error]

def word : Level → String
  | debug => "debug"
  | info => "info"
  | warn => "warn"
  | error => "error"

def words : List String := all.map word

def ofWord? (word : String) : Option Level := all.find? fun level => level.word == word

@[simp] theorem ofWord?_word (level : Level) : ofWord? level.word = some level := by
  cases level <;> decide

def rank : Level → Nat
  | debug => 10
  | info => 20
  | warn => 30
  | error => 40

/-- The threshold of a logger that is given none. -/
def standard : Level := info

def method : Level → String
  | debug => "debug"
  | info => "log"
  | warn => "warn"
  | error => "error"

end Level

structure Entry where
  level : Level
  message : String
  data : Fields
  deriving DecidableEq, Repr

def Entry.toDocument (entry : Entry) : Document :=
  .object [("level", .text entry.level.word), ("message", .text entry.message),
    ("data", .object entry.data)]

/-- The fields of an entry on the console. The data may replace the fields before it. -/
def Entry.fields (context : String) (entry : Entry) : Fields :=
  Fields.putAll [("level", .text entry.level.word), ("context", .text context),
    ("message", .text entry.message)] entry.data

def Entry.line (context : String) (entry : Entry) : String :=
  (Document.object (entry.fields context)).print

/-- A logger that keeps every entry, or one that prints the entries of at least a level. One
whose threshold is no level prints nothing. -/
inductive Logger where
  | recorder
  | console (context : String) (threshold : Option Level)
  deriving DecidableEq, Repr

inductive Output where
  | recorded (entry : Entry)
  | printed (method line : String)
  deriving DecidableEq, Repr

def Logger.output? : Logger → Entry → Option Output
  | recorder, entry => some (.recorded entry)
  | console _ none, _ => none
  | console context (some threshold), entry =>
    if threshold.rank ≤ entry.level.rank then
      some (.printed entry.level.method (entry.line context))
    else none

def Logger.outputs (logger : Logger) (entries : List Entry) : List Output :=
  entries.filterMap logger.output?

@[simp] theorem Logger.outputs_nil (logger : Logger) : logger.outputs [] = [] := rfl

theorem Logger.outputs_append (logger : Logger) (entries others : List Entry) :
    logger.outputs (entries ++ others) = logger.outputs entries ++ logger.outputs others :=
  List.filterMap_append

def Output.toDocument : Output → Document
  | recorded entry => entry.toDocument
  | printed method line => .object [("method", .text method), ("line", .text line)]

end Log

/-- A computation that logs and may fail. -/
structure Logged (ε α : Type) where
  outputs : List Log.Output
  outcome : Except ε α

namespace Logged

variable {ε α β : Type}

def bind (first : Logged ε α) (next : α → Logged ε β) : Logged ε β :=
  match first.outcome with
  | .ok value => ⟨first.outputs ++ (next value).outputs, (next value).outcome⟩
  | .error error => ⟨first.outputs, .error error⟩

instance : Monad (Logged ε) where
  pure value := ⟨[], .ok value⟩
  bind := bind

def tell (logger : Log.Logger) (entry : Log.Entry) : Logged ε Unit :=
  ⟨logger.outputs [entry], .ok ()⟩

def ofExcept (outcome : Except ε α) : Logged ε α := ⟨[], outcome⟩

def mapError {ε' : Type} (f : ε → ε') (logged : Logged ε α) : Logged ε' α :=
  ⟨logged.outputs, logged.outcome.mapError f⟩

@[simp] theorem pure_outputs (value : α) : (pure value : Logged ε α).outputs = [] := rfl
@[simp] theorem pure_outcome (value : α) : (pure value : Logged ε α).outcome = .ok value := rfl

theorem bind_of_ok {first : Logged ε α} {value : α} (h : first.outcome = .ok value)
    (next : α → Logged ε β) :
    (first >>= next) = ⟨first.outputs ++ (next value).outputs, (next value).outcome⟩ := by
  change first.bind next = _
  simp [bind, h]

theorem bind_of_error {first : Logged ε α} {error : ε} (h : first.outcome = .error error)
    (next : α → Logged ε β) : (first >>= next) = ⟨first.outputs, .error error⟩ := by
  change first.bind next = _
  simp [bind, h]

theorem bind_pure_eq (first : Logged ε α) (f : α → β) :
    (first >>= fun value => pure (f value)) = ⟨first.outputs, first.outcome.map f⟩ := by
  cases h : first.outcome with
  | ok value =>
    rw [bind_of_ok h, pure_outputs, List.append_nil]
    rfl
  | error error =>
    rw [bind_of_error h]
    rfl

end Logged
end Scaffold
