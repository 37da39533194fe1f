import Calculator.Token

/-!
# Journals

An evaluation keeps a journal of what it did, whether or not it comes to a value. The journal of one
evaluation after another is the one's events, then the other's.
-/

namespace Calculator

inductive Event where
  | token (t : Token)
  | operation (op : Operator) (left right value : Number)
  /-- The group between two indexes has the value. -/
  | group (opening closing : Nat) (value : Number)
  | result (text : String) (value : Number)
deriving DecidableEq

namespace Event

/-- The characters of a text in quotes, its blanks other than the space escaped. -/
def quote (text : String) : String :=
  let escape (c : Char) : List Char :=
    if c == '\t' then ['\\', 't']
    else if c == '\n' then ['\\', 'n']
    else if c == '\r' then ['\\', 'r']
    else if c == '\x0c' then ['\\', 'u', '\x7b', 'c', '\x7d']
    else [c]
  String.ofList ('"' :: text.toList.flatMap escape ++ ['"'])

def plain (x : Number) : String := String.ofList (Layout.plain.number x)

/-- The line of an event. Results and groups concern the reader of a journal more than the steps
between them do. -/
def line : Event → String
  | token t => "TRACE token " ++ t.describe
  | operation op left right value =>
    "TRACE " ++ plain left ++ " " ++ op.symbol.toString ++ " " ++ plain right ++ " = " ++ plain value
  | group opening closing value =>
    s!"DEBUG group at tokens {opening}..={closing} = " ++ plain value
  | result text value => "DEBUG " ++ quote text ++ " = " ++ plain value

end Event

structure Journaled (α : Type) where
  events : List Event
  outcome : Except Error α

namespace Journaled

variable {α β : Type}

/-- An outcome of which the journal says nothing. -/
def ofExcept (outcome : Except Error α) : Journaled α := ⟨[], outcome⟩

def fail (error : Error) : Journaled α := ofExcept (.error error)

def record (event : Event) : Journaled Unit := ⟨[event], .ok ()⟩

def andThen (first : Journaled α) (next : α → Journaled β) : Journaled β :=
  match first.outcome with
  | .ok value => ⟨first.events ++ (next value).events, (next value).outcome⟩
  | .error error => ⟨first.events, .error error⟩

instance : Monad Journaled where
  pure value := ofExcept (.ok value)
  bind := andThen

/-! ## Laws -/

@[simp] theorem events_pure (value : α) : (pure value : Journaled α).events = [] := rfl

@[simp] theorem outcome_pure (value : α) : (pure value : Journaled α).outcome = .ok value := rfl

@[simp] theorem outcome_bind (first : Journaled α) (next : α → Journaled β) :
    (first >>= next).outcome = first.outcome >>= fun value => (next value).outcome := by
  obtain ⟨events, outcome⟩ := first
  cases outcome <;> rfl

theorem bind_ok {first : Journaled α} {value : α} (h : first.outcome = .ok value)
    (next : α → Journaled β) :
    first >>= next = ⟨first.events ++ (next value).events, (next value).outcome⟩ := by
  show andThen first next = _
  simp [andThen, h]

theorem bind_error {first : Journaled α} {error : Error} (h : first.outcome = .error error)
    (next : α → Journaled β) : first >>= next = ⟨first.events, .error error⟩ := by
  show andThen first next = _
  simp [andThen, h]

theorem events_bind_ok {first : Journaled α} {value : α} (h : first.outcome = .ok value)
    (next : α → Journaled β) : (first >>= next).events = first.events ++ (next value).events := by
  rw [bind_ok h]

theorem exists_of_bind_ok {first : Journaled α} {next : α → Journaled β} {result : β}
    (h : (first >>= next).outcome = .ok result) : ∃ value, first.outcome = .ok value ∧
      (next value).outcome = .ok result ∧
      (first >>= next).events = first.events ++ (next value).events := by
  cases hfirst : first.outcome with
  | error error =>
    rw [bind_error hfirst] at h
    cases h
  | ok value =>
    rw [bind_ok hfirst] at h ⊢
    exact ⟨value, rfl, h, rfl⟩

/-- The journal of two parts has only events that one of them can have. -/
theorem forall_mem_bind {p : Event → Prop} {first : Journaled α} {next : α → Journaled β}
    (hfirst : ∀ event ∈ first.events, p event)
    (hnext : ∀ value, ∀ event ∈ (next value).events, p event) :
    ∀ event ∈ (first >>= next).events, p event := by
  intro event hevent
  cases h : first.outcome with
  | error error =>
    rw [bind_error h] at hevent
    exact hfirst event hevent
  | ok value =>
    rw [events_bind_ok h, List.mem_append] at hevent
    rcases hevent with hevent | hevent
    · exact hfirst event hevent
    · exact hnext value event hevent

theorem bind_assoc (first : Journaled α) (next : α → Journaled β) {γ : Type}
    (last : β → Journaled γ) :
    first >>= next >>= last = first >>= fun value => next value >>= last := by
  cases h : first.outcome with
  | error error => rw [bind_error h, bind_error h, bind_error rfl]
  | ok value =>
    rw [bind_ok h, bind_ok h]
    cases hn : (next value).outcome with
    | error error => rw [bind_error rfl, bind_error hn]
    | ok result => rw [bind_ok rfl, bind_ok hn, List.append_assoc]

theorem bind_pure (x : Journaled α) : x >>= pure = x := by
  obtain ⟨events, outcome⟩ := x
  cases outcome with
  | error error => rfl
  | ok value => rw [bind_ok rfl, events_pure, outcome_pure, List.append_nil]

instance : LawfulMonad Journaled :=
  LawfulMonad.mk' Journaled bind_pure (fun _ _ => rfl) fun x f g => bind_assoc x f g

end Journaled

end Calculator
