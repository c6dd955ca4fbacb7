import Mathlib.Logic.Equiv.Basic
import Wan.Container.StringContainer.Creation

/-!
# Programs over several strings

Strings that share one memory, are constructed, copied, moved, assigned, swapped and destroyed,
and on which member functions are called, and the same commands on lists of characters.  A
command about a name that holds no string, about a name that already holds one, or about a
character that is not there is skipped.
-/

namespace Wan.Container.StringContainer

open Wan.Library Wan.Library.LinkedList Wan.Library.Program

/-- A character argument: one outside of all strings, or one of a string. -/
inductive Argument where
  | value (value : Character)
  | element (name index : Nat)
  deriving DecidableEq, Repr

/-- A `const char *` argument: null, a literal, or `CStr() + offset` of a string. -/
inductive TextArgument where
  | null
  | literal (literal : Literal)
  | inside (name offset : Nat)
  deriving DecidableEq, Repr

/-- What a program does with strings. -/
inductive Command where
  | construct (name : Nat) (text : TextArgument)
  /-- From a `char *` of the program, with so many characters behind the terminating zero. -/
  | adopt (name : Nat) (literal : Literal) (spare : Nat)
  | constructList (name : Nat) (literal : Literal)
  | copyConstruct (name source : Nat)
  | moveConstruct (name source : Nat)
  | destroy (name : Nat)
  | copyAssign (target source : Nat)
  | assignText (name : Nat) (text : TextArgument)
  | moveAssign (target source : Nat)
  | swap (first second : Nat)
  | uppercase (name : Nat)
  | lowercase (name : Nat)
  | prepend (name : Nat) (subString : TextArgument)
  | insertSubString (name : Nat) (subString : TextArgument) (startPosition : Nat)
  | pushBack (name : Nat) (value : Argument)
  | pushBackString (name other : Nat)
  | pushBackText (name : Nat) (text : TextArgument)
  | resize (name inaugurateSize : Nat) (defaultData : Argument)
  | reserve (name newContainerCapacity : Nat)
  | writeAt (name accessLocation : Nat) (value : Character)
  | subString (name source startPosition : Nat)
  | subStringFrom (name source startPosition : Nat)
  | subStringTo (name source startPosition terminatePosition : Nat)
  | reverse (name source : Nat)
  | reverseSubString (name source startPosition terminatePosition : Nat)
  | plus (name source other : Nat)
  deriving Repr

/-- The memory and the strings that are alive. -/
structure World where
  memory : Memory Character
  strings : Nat → Option Str

namespace World

/-- The world in which no string has been constructed. -/
def empty : World := ⟨.empty, fun _ => none⟩

variable (world : World) (budget : Option Nat)

/-- Let a name hold a string, or none. -/
def put (name : Nat) (str : Option Str) : World :=
  { world with strings := Function.update world.strings name str }

/-- Let two names exchange what they hold. -/
def exchange (first second : Nat) : World :=
  { world with strings := world.strings ∘ Equiv.swap first second }

@[simp] theorem put_strings (name : Nat) (str : Option Str) :
    (world.put name str).strings = Function.update world.strings name str := rfl

@[simp] theorem put_memory (name : Nat) (str : Option Str) :
    (world.put name str).memory = world.memory := rfl

@[simp] theorem exchange_strings (first second : Nat) :
    (world.exchange first second).strings = world.strings ∘ Equiv.swap first second := rfl

@[simp] theorem exchange_memory (first second : Nat) :
    (world.exchange first second).memory = world.memory := rfl

/-- Let a name hold what a method makes, unless it throws. -/
def perform (name : Nat) (method : Method Str) : Option (World × Option Failure) := do
  match ← method.run.run ⟨world.memory, budget⟩ with
  | (.ok result, after) =>
      return ({ world with memory := after.memory }.put name (some result), none)
  | (.error failure, after) => return ({ world with memory := after.memory }, some failure)

/-- Make a new string from something. -/
def create {α : Type} (name : Nat) (source : Option α) (method : α → Method Str) :
    Option (World × Option Failure) :=
  match world.strings name, source with
  | none, some source => world.perform budget name (method source)
  | _, _ => some (world, none)

/-- Call a member function with an argument. -/
def change {α : Type} (name : Nat) (argument : Option α) (method : Str → α → Method Str) :
    Option (World × Option Failure) :=
  match world.strings name, argument with
  | some str, some argument => world.perform budget name (method str argument)
  | _, _ => some (world, none)

/-- Destroy the string that a name holds. -/
def destroy (name : Nat) : Option (World × Option Failure) :=
  match world.strings name with
  | some str => do
      match ← str.destroy.run.run ⟨world.memory, budget⟩ with
      | (.ok _, after) => return ({ world with memory := after.memory }.put name none, none)
      | (.error failure, after) => return ({ world with memory := after.memory }, some failure)
  | none => some (world, none)

/-- The reference that is passed for an argument. -/
def refer : Argument → Option Reference
  | .value value => some (.outside value)
  | .element name index => do
      let str ← world.strings name
      let data ← str.memberData
      if index < str.memberSize then some (.element data index) else none

/-- The pointer that is passed for an argument. `CStr` of a moved-from string is a literal. -/
def point : TextArgument → Option Text
  | .null => some .null
  | .literal outside => some (.literal outside)
  | .inside name offset => do
      let str ← world.strings name
      if offset ≤ str.memberSize then
        match str.memberData with
        | some data => some (.inside data offset)
        | none => some (.literal ⟨[], Nat.zero_le _⟩)
      else none

/-- Execute one command, with so many allocations that succeed. -/
def step : Command → Option (World × Option Failure)
  | .construct name text => world.create budget name (world.point text) Str.ofText
  | .adopt name outside spare =>
      match world.strings name with
      | none =>
          let buffer := outside.characters.map some ++ some 0 :: List.replicate spare none
          { world with memory := world.memory.alloc buffer }.perform budget name
            (Str.ofPointer world.memory.next)
      | some _ => some (world, none)
  | .constructList name outside => world.create budget name (some outside) Str.ofList
  | .copyConstruct name source => world.create budget name (world.strings source) Str.copy
  | .moveConstruct name source =>
      match world.strings name, world.strings source with
      | none, some _ => some ((world.exchange name source).put source (some .moved), none)
      | _, _ => some (world, none)
  | .destroy name => world.destroy budget name
  | .copyAssign target source =>
      if target = source then some (world, none)
      else world.change budget target (world.strings source) Str.assign
  | .assignText name text => world.change budget name (world.point text) Str.assignText
  | .moveAssign target source =>
      match world.strings target, world.strings source with
      | some _, some _ =>
          if target = source then some (world, none)
          else do
            let (destroyed, failure) ← world.destroy budget target
            return ((destroyed.exchange target source).put source (some .moved), failure)
      | _, _ => some (world, none)
  | .swap first second =>
      match world.strings first, world.strings second with
      | some _, some _ => some (world.exchange first second, none)
      | _, _ => some (world, none)
  | .uppercase name => world.change budget name (some ()) fun str _ => str.uppercase
  | .lowercase name => world.change budget name (some ()) fun str _ => str.lowercase
  | .prepend name subString => world.change budget name (world.point subString) Str.prepend
  | .insertSubString name subString startPosition =>
      world.change budget name (world.point subString)
        fun str text => str.insertSubString text startPosition
  | .pushBack name value => world.change budget name (world.refer value) Str.pushBack
  | .pushBackString name other =>
      world.change budget name (world.strings other) fun str source =>
        if name = other then str.pushBackSelf else str.pushBackOther source
  | .pushBackText name text => world.change budget name (world.point text) Str.pushBackText
  | .resize name inaugurateSize defaultData =>
      world.change budget name (world.refer defaultData)
        fun str reference => str.resize inaugurateSize reference
  | .reserve name newContainerCapacity =>
      world.change budget name (some ()) fun str _ => str.allocateResources newContainerCapacity
  | .writeAt name accessLocation value =>
      world.change budget name (some ()) fun str _ => str.writeAt accessLocation value
  | .subString name source startPosition =>
      world.create budget name (world.strings source) fun str => str.subString startPosition
  | .subStringFrom name source startPosition =>
      world.create budget name (world.strings source) fun str => str.subStringFrom startPosition
  | .subStringTo name source startPosition terminatePosition =>
      world.create budget name (world.strings source)
        fun str => str.subStringTo startPosition terminatePosition
  | .reverse name source => world.create budget name (world.strings source) Str.reverse
  | .reverseSubString name source startPosition terminatePosition =>
      world.create budget name (world.strings source)
        fun str => str.reverseSubString startPosition terminatePosition
  | .plus name source other =>
      world.create budget name (do return (← world.strings source, ← world.strings other))
        fun pair => pair.1.plus pair.2

/-- Execute commands, each with the number of its allocations that succeed; what each of them
throws is listed. -/
def run (world : World) : List (Option Nat × Command) → Option (World × List (Option Failure))
  | [] => some (world, [])
  | (budget, command) :: commands => do
      let (next, outcome) ← world.step budget command
      let (last, outcomes) ← run next commands
      return (last, outcome :: outcomes)

/-- The command hands a character of a string to the same string, and the string replaces its
buffer before it reads the character. -/
def Dangles : Command → Prop
  | .pushBack name (.element owner index) => owner = name ∧ budget ≠ some 0 ∧
      ∃ str, world.strings name = some str ∧ index < str.memberSize ∧
        str.memberSize = str.memberCapacity ∧ str.memberSize < maximumSize
  | .resize name inaugurateSize (.element owner index) => owner = name ∧ budget ≠ some 0 ∧
      ∃ str, world.strings name = some str ∧ index < str.memberSize ∧
        str.memberCapacity < inaugurateSize ∧ inaugurateSize ≤ maximumSize
  | _ => False

end World

/-- The lists that the strings stand for. -/
abbrev Lists := Nat → Option (List Character)

namespace Lists

variable (lists : Lists)

/-- Let a name stand for a list, unless the command is refused. -/
def set (name : Nat) : Option Failure × List Character → Lists × Option Failure
  | (none, list) => (Function.update lists name (some list), none)
  | (some failure, _) => (lists, some failure)

/-- A new list from something. -/
def create {α : Type} (name : Nat) (source : Option α)
    (make : α → Option Failure × List Character) : Lists × Option Failure :=
  match lists name, source with
  | none, some source => lists.set name (make source)
  | _, _ => (lists, none)

/-- Change a list by something. -/
def change {α : Type} (name : Nat) (argument : Option α)
    (make : List Character → α → Option Failure × List Character) : Lists × Option Failure :=
  match lists name, argument with
  | some list, some argument => lists.set name (make list argument)
  | _, _ => (lists, none)

/-- The value of a character argument. -/
def value : Argument → Option Character
  | .value value => some value
  | .element name index => do (← lists name)[index]?

/-- The characters of a C string argument; null has none. -/
def text : TextArgument → Option (List Character)
  | .null => some []
  | .literal outside => some (outside.characters.takeWhile fun value => value ≠ 0)
  | .inside name offset => do
      let list ← lists name
      if offset ≤ list.length then some ((list.drop offset).takeWhile fun value => value ≠ 0)
      else none

/-- Let two names exchange what they stand for. -/
def exchange (first second : Nat) : Lists := lists ∘ Equiv.swap first second

/-- Let a name stand for a list, or for none. -/
def put (name : Nat) (list : Option (List Character)) : Lists := Function.update lists name list

/-- Execute one command. -/
def step : Command → Lists × Option Failure
  | .construct name text => lists.create name (lists.text text)
      fun characters => (lengthRefusal characters.length, characters)
  | .adopt name outside _ => lists.create name (lists.text (.literal outside))
      fun characters => (none, characters)
  | .constructList name outside => lists.create name (some outside)
      fun outside => (none, outside.characters)
  | .copyConstruct name source => lists.create name (lists source) fun list => (none, list)
  | .moveConstruct name source =>
      match lists name, lists source with
      | none, some _ => ((lists.exchange name source).put source (some []), none)
      | _, _ => (lists, none)
  | .destroy name => (lists.put name none, none)
  | .copyAssign target source =>
      if target = source then (lists, none)
      else lists.change target (lists source) fun _ list => (none, list)
  | .assignText name text => lists.change name (lists.text text)
      fun _ characters => (lengthRefusal characters.length, characters)
  | .moveAssign target source =>
      match lists target, lists source with
      | some _, some _ =>
          if target = source then (lists, none)
          else (((lists.put target none).exchange target source).put source (some []), none)
      | _, _ => (lists, none)
  | .swap first second =>
      match lists first, lists second with
      | some _, some _ => (lists.exchange first second, none)
      | _, _ => (lists, none)
  | .uppercase name => lists.change name (some ()) fun list _ => (none, list.map Str.toUpper)
  | .lowercase name => lists.change name (some ()) fun list _ => (none, list.map Str.toLower)
  | .prepend name subString => lists.change name (lists.text subString)
      fun list characters =>
        (lengthRefusal (list.length + characters.length), characters ++ list)
  | .insertSubString name subString startPosition => lists.change name (lists.text subString)
      fun list characters => (insertRefusal list.length startPosition characters.length,
        list.take startPosition ++ characters ++ list.drop startPosition)
  | .pushBack name value => lists.change name (lists.value value)
      fun list value => (lengthRefusal (list.length + 1), list ++ [value])
  | .pushBackString name other => lists.change name (lists other)
      fun list more => (lengthRefusal (list.length + more.length), list ++ more)
  | .pushBackText name text => lists.change name (lists.text text)
      fun list characters =>
        (lengthRefusal (list.length + characters.length), list ++ characters)
  | .resize name inaugurateSize defaultData => lists.change name (lists.value defaultData)
      fun list value => (resizeRefusal inaugurateSize, resized list inaugurateSize value)
  | .reserve name newContainerCapacity => lists.change name (some ())
      fun list _ => (capacityRefusal newContainerCapacity, list)
  | .writeAt name accessLocation value => lists.change name (some ())
      fun list _ => (writeRefusal list.length accessLocation, list.set accessLocation value)
  | .subString name source startPosition => lists.create name (lists source)
      fun list => (rangeRefusal (startPosition > list.length) "传入参数位置越界" "sub_string",
        list.drop startPosition)
  | .subStringFrom name source startPosition => lists.create name (lists source)
      fun list => (rangeRefusal (startPosition > list.length) "传入参数位置越界" "sub_string_from",
        list.drop startPosition)
  | .subStringTo name source startPosition terminatePosition => lists.create name (lists source)
      fun list => (rangeRefusal (startPosition > list.length ∨ terminatePosition > list.length ∨
          startPosition > terminatePosition) "传入参数位置越界" "sub_string",
        (list.drop startPosition).take (terminatePosition - startPosition))
  | .reverse name source => lists.create name (lists source)
      fun list => (rangeRefusal (list.length = 0) "当前string为空" "reserve", list.reverse)
  | .reverseSubString name source startPosition terminatePosition =>
      lists.create name (lists source) fun list =>
        (rangeRefusal (startPosition > list.length ∨ terminatePosition > list.length ∨
            startPosition > terminatePosition ∨ list.length = 0)
          "string回滚位置异常" "reverse_sub_string",
        ((list.drop startPosition).take (terminatePosition - startPosition)).reverse)
  | .plus name source other =>
      lists.create name (do return (← lists source, ← lists other))
        fun pair => (lengthRefusal (pair.1.length + pair.2.length), pair.1 ++ pair.2)

end Lists

end Wan.Container.StringContainer
