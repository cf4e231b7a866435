/-!
# Forms of options

A command is told what to do by options: `--name value` or `--name=value`, or only `--name` for a
switch. A form has a slot for each option. `fillIn` takes the options one after the other and stops
at the first that asks for help or that does not fit.
-/

namespace Geotrack.Command

/-- What is told about a slot. -/
structure SlotNote where
  name : String
  /-- The word that stands for the value; none for a switch. -/
  placeholder : Option String
  required : Bool := false
  about : String

/-- A slot of a form of type `σ`. -/
structure Slot (σ : Type) extends SlotNote where
  /-- The form with the slot filled in, if the text can be its value and it was empty. A switch is
  filled in with the empty text. -/
  fill : String → σ → Option σ

/-- Why a form is not filled in. -/
inductive Halt where
  | help
  | misuse
  deriving DecidableEq, Repr

/-- Fills in a slot that is empty. -/
def once {σ α : Type} (read : String → Option α) (slot : σ → Option α) (set : σ → α → σ)
    (text : String) (form : σ) : Option σ :=
  if (slot form).isSome then none else (read text).map (set form)

/-- Whether an argument asks for help. -/
def asksHelp (argument : String) : Bool := argument = "--help" || argument.startsWith "-h"

/-- Whether an argument can be the value of the option before it. -/
def isValue (argument : String) : Bool := !argument.startsWith "-" || argument = "-"

/-- The name of an option and the value behind an equals sign; none for any other argument. -/
def splitOption? (argument : String) : Option (String × Option String) :=
  match argument.toList with
  | '-' :: '-' :: cs =>
    let name := String.ofList (cs.takeWhile (· ≠ '='))
    match cs.dropWhile (· ≠ '=') with
    | [] => some (name, none)
    | _ :: value => some (name, some (String.ofList value))
  | _ => none

/-- The option at the front of some arguments with its slot, its value and the rest of them. -/
def option? {σ : Type} (slots : List (Slot σ)) (argument : String) (rest : List String) :
    Option (Slot σ × String × List String) := do
  let (name, attached) ← splitOption? argument
  let slot ← slots.find? (·.name = name)
  match slot.placeholder, attached, rest with
  | none, none, _ => some (slot, "", rest)
  | some _, some value, _ => some (slot, value, rest)
  | some _, none, value :: rest => if isValue value then some (slot, value, rest) else none
  | _, _, _ => none

theorem option?_length {σ : Type} {slots : List (Slot σ)} {argument : String} {rest : List String}
    {slot : Slot σ} {value : String} {tail : List String}
    (h : option? slots argument rest = some (slot, value, tail)) : tail.length ≤ rest.length := by
  simp only [option?, bind, Option.bind_eq_some_iff] at h
  obtain ⟨_, _, s, _, h⟩ := h
  split at h
  · cases h; exact Nat.le_refl _
  · cases h; exact Nat.le_refl _
  · split at h
    · cases h; simp
    · cases h
  · cases h

/-- Fills in a form. Two hyphens may end the arguments. -/
def fillIn {σ : Type} (slots : List (Slot σ)) (form : σ) : List String → Except Halt σ
  | [] => .ok form
  | argument :: rest =>
    if argument = "--" ∧ rest = [] then .ok form
    else if asksHelp argument then .error .help
    else
      match h : option? slots argument rest with
      | none => .error .misuse
      | some (slot, value, tail) =>
        have := option?_length h
        match slot.fill value form with
        | some form => fillIn slots form tail
        | none => .error .misuse
  termination_by arguments => arguments.length

end Geotrack.Command
