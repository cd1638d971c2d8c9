import PacketFilter.CommandLine.Refusal
import PacketFilter.Text.Line

/-! # Requests

What the arguments of the program ask for. Options may stand before and after the verb; those after it count.
`Reading.collect` reads the arguments of a scope from left to right, up to a verb where one is to be chosen. The value
of an option stands after it or after an equals sign, flags with one letter may stand together, and after two hyphens
there are only words. A value is looked at when the next parameter is set, so faults in later arguments may come
first. -/

/-! ## Similar words

Two words are the more similar the more of their letters have partners, letters that are equal and not far away, and
the fewer of the partners stand in another order. `similar` picks the words that are similar enough to be meant. -/

namespace PacketFilter.Text

/-- The place of the first letter equal to `x` that has no partner yet, between two places. -/
def partner? (x : Char) (ys : List (Char × Bool)) (first last : Nat) : Option Nat :=
  (List.range last).find? fun j => first ≤ j && ys[j]? == some (x, false)

/-- The letters from place `i` on that have partners, and the letters of the other word, each with whether it has a
partner. Partners are at most `reach` places apart. -/
def pairUp (reach : Nat) : Nat → List Char → List (Char × Bool) → List Char × List (Char × Bool)
  | _, [], ys => ([], ys)
  | i, x :: xs, ys =>
    match partner? x ys (i - reach) (i + reach + 1) with
    | some j =>
      let (paired, ys) := pairUp reach (i + 1) xs (ys.set j (x, true))
      (x :: paired, ys)
    | none => pairUp reach (i + 1) xs ys

/-- How similar two words are, from 0 to 1: the mean of the shares of letters that have partners in each word and of
the share of partners that stand in the same order. -/
def similarity (v w : String) : Float :=
  let xs := v.toList
  let ys := w.toList
  if xs.isEmpty && ys.isEmpty then 1
  else
    let (ours, marked) := pairUp (max xs.length ys.length / 2 - 1) 0 xs (ys.map (·, false))
    let theirs := (marked.filter Prod.snd).map Prod.fst
    let displaced := ((ours.zip theirs).filter fun (x, y) => x != y).length / 2
    if ours.isEmpty then 0
    else
      let share (n d : Nat) : Float := n.toFloat / d.toFloat
      (share ours.length xs.length + share ours.length ys.length +
        share (ours.length - displaced) ours.length) / 3

/-- Puts a word that is so similar behind those that are not more similar. -/
def insertBySimilarity (s : Float) (word : String) : List (Float × String) → List (Float × String)
  | [] => [(s, word)]
  | (t, other) :: rest =>
    if t > s then (s, word) :: (t, other) :: rest else (t, other) :: insertBySimilarity s word rest

/-- The given words that are similar enough to a word to be meant by it, the most similar one last. -/
def similar (word : String) (words : List String) : List String :=
  let rated := words.foldl (fun found w =>
    let s := similarity word w
    if s > 0.7 then insertBySimilarity s w found else found) []
  rated.map Prod.snd

end PacketFilter.Text

/-! ## Reading a part of the arguments -/

namespace PacketFilter

/-- Why arguments give nothing to do. -/
inductive Stop where
  /-- A page of help is asked for. -/
  | page (scope : Scope)
  /-- The version of the program is asked for. -/
  | version
  /-- There are no arguments. -/
  | noArguments
  | refused (r : Refusal)
deriving DecidableEq

/-- What has been read of the arguments of a scope. -/
structure Reading where
  /-- The parameters that are set, with their values. -/
  given : List (Parameter × String) := []
  /-- The parameter to be set next, with its value unless that is still to come. -/
  waiting : Option (Parameter × Option String) := none
  /-- Whether two hyphens have been read. -/
  onlyWords : Bool := false
  /-- Whether the word of the scope has been read. -/
  hasWord : Bool := false

namespace Reading

/-- Whether the next argument is the value of an option. -/
def needsValue (r : Reading) : Bool :=
  r.waiting.any fun (_, value) => value.isNone

def options (r : Reading) : List Parameter :=
  (r.given.map Prod.fst).filter fun p => ! p.isWord

/-- What is wrong with a value. -/
def fault? (p : Parameter) (value : String) : Option Fault :=
  match p with
  | .config | .pre | .post | .manifest => if value.isEmpty then some (.noValue p) else none
  | .addressMode => if (AddressMode.ofName? value).isNone then some (.unknownName value p) else none
  | _ => none

/-- Sets a parameter, which may be set only once, and says what is wrong with that. -/
def give (r : Reading) (p : Parameter) (value : String) : Reading × Option Fault :=
  if r.given.any fun (q, _) => p = q then
    ({ r with given := r.given.filter fun (q, _) => p ≠ q }, some (.repeated p))
  else ({ r with given := r.given ++ [(p, value)] }, fault? p value)

/-- Sets the parameter that is waiting, and says what is wrong with that. -/
def settle (r : Reading) : Reading × Option Fault :=
  match r.waiting with
  | none => (r, none)
  | some (p, none) => ({ r with waiting := none }, some (.noValue p))
  | some (p, some value) => { r with waiting := none }.give p value

variable (s : Scope)

def refuse {α : Type} (fault : Fault) (used : List Parameter) : Except Stop α :=
  throw (.refused { scope := s, fault, used })

/-- A reading, unless there is something wrong with it. -/
def accept : Reading × Option Fault → Except Stop Reading
  | (r, none) => return r
  | (_, some fault) => refuse s fault []

/-- A reading in which no parameter is waiting. -/
def settled (r : Reading) : Except Stop Reading :=
  accept s r.settle

def readFlag (r : Reading) (p : Parameter) : Except Stop Reading := do
  let r ← settled s r
  match p with
  | .help => throw (.page s)
  | .version => throw .version
  | _ => accept s (r.give p "")

/-- What may be meant by an option that the scope does not have: one with a similar name, one of a verb that comes
later, or a word. -/
def optionTip? (name : String) (rest : List String) : Option Tip :=
  match (Text.similar name s.longs).getLast? with
  | some other => some (.similarOption other)
  | none =>
    let ofVerb := rest.findSome? fun word => do
      let v ← s.verb? word
      return .optionOf v (← (Text.similar name (Scope.verb v).longs).getLast?)
    ofVerb.or (s.word?.map fun _ => .asWord ("--" ++ name))

/-- Refuses an option that the scope does not have. -/
def refuseOption (r : Reading) (name : String) (rest : List String) : Except Stop Reading :=
  let tip? := optionTip? s name rest
  let meant :=
    match tip? with
    | some (.similarOption other) => s.parameters.filter fun p => p.long? == some other
    | _ => []
  refuse s (.unexpected ("--" ++ name) tip?.toList) (r.settle.1.options ++ meant)

/-- Reads an option with its name, and its value if that follows an equals sign. -/
def readOption (r : Reading) (name : String) (value? : Option String) (rest : List String) :
    Except Stop Reading := do
  match s.parameters.find? fun p => p.long? == some name, value? with
  | none, _ => refuseOption s r name rest
  | some p, some value =>
    if p.value?.isSome then accept s ((← settled s r).give p value)
    else refuse s (.unexpectedValue value p) (r.options ++ [p])
  | some p, none =>
    if p.value?.isSome then return { ← settled s r with waiting := some (p, none) }
    else readFlag s r p

/-- Reads flags that stand together as letters. -/
def readLetters : Reading → List Char → Except Stop Reading
  | r, [] => return r
  | r, c :: cs =>
    match s.parameters.find? fun p => p.short? == some c with
    | some p => do readLetters (← readFlag s r p) cs
    | none =>
      let arg := "-" ++ c.toString
      refuse s (.unexpected arg (s.word?.toList.map fun _ => .asWord arg)) []

def readWord (r : Reading) (arg : String) : Except Stop Reading :=
  match if r.hasWord then none else s.word? with
  | some p => do return { ← settled s r with waiting := some (p, some arg), hasWord := true }
  | none =>
    if r.onlyWords && (s.verb? arg).isSome then refuse s (.unexpected arg [.asVerb arg]) []
    else if s = .program then
      refuse s (.unknownVerb arg (Text.similar arg (Verb.all.map Verb.name))) []
    else refuse s (.unexpected arg []) []

/-- Reads an argument that chooses no verb. -/
def readArgument (r : Reading) (arg : String) (rest : List String) : Except Stop Reading :=
  if r.onlyWords then readWord s r arg
  else if arg = "--" then return { r with onlyWords := true }
  else
    match arg.toList with
    | '-' :: '-' :: cs =>
      let name := String.ofList cs
      match Text.cut '=' name with
      | some (name, value) => readOption s r name (some value) rest
      | none => readOption s r name none rest
    | '-' :: c :: cs => readLetters s r (c :: cs)
    | _ =>
      match r.waiting with
      | some (p, none) => return { r with waiting := some (p, some arg) }
      | _ => readWord s r arg

/-- Reads the arguments of a scope, up to a verb; then what follows the verb is left. -/
def collect : Reading → List String → Except Stop (Reading × Option (Verb × List String))
  | r, [] => return (r, none)
  | r, arg :: rest =>
    match if r.onlyWords || r.needsValue then none else s.verb? arg with
    | some v => return (r, some (v, rest))
    | none => do collect (← readArgument s r arg rest) rest

/-- The two parameters that exclude each other, if both are set, as they are set. -/
def conflict? (r : Reading) : Option (Parameter × Parameter) :=
  match (r.given.map Prod.fst).filter fun p => p = .verbose ∨ p = .quiet with
  | p :: q :: _ => some (p, q)
  | _ => none

/-- A reading that is complete, unless parameters exclude each other or one is missing. -/
def complete (r : Reading) : Except Stop Reading := do
  let r ← settled s r
  if let some (p, q) := r.conflict? then
    refuse s (.conflicting p q) (r.options.filter (· ≠ q))
  if let some p := s.word? then
    unless r.given.any fun (q, _) => p = q do
      refuse s (.missing p) (r.options ++ [p])
  return r

end Reading

/-! ## Reading a request -/

/-- What the program is to do. -/
inductive Request where
  /-- Show the rules that a manifest declares. -/
  | check (manifest : String)
  /-- Show how the live rules differ from the declared ones. -/
  | compare (manifest : String)
  /-- Make the live rules the declared ones, or only tell how. -/
  | apply (manifest : String) (dryRun : Bool)
  /-- Show the live rules. -/
  | show
  /-- Show the version of the program. -/
  | version
deriving DecidableEq

/-- The options of every request. -/
structure Options where
  /-- The file with the configuration. -/
  config : Option String := none
  /-- The file of rules before the declared ones. -/
  pre : Option String := none
  /-- The file of rules after the declared ones. -/
  post : Option String := none
  /-- How a listing writes networks, if that is not to be found out. -/
  addressMode : Option AddressMode := none
deriving DecidableEq

namespace Request

/-- What comes of asking for help about words: the page of a verb, or of the program without words. -/
def helpAbout : List String → Stop
  | [] => .page .program
  | word :: rest =>
    match Verb.ofName? word, rest with
    | none, _ => .refused ⟨.program, .unknownVerb word [], []⟩
    | some v, [] => .page (.verb v)
    | some v, other :: _ => .refused ⟨.verb v, .unknownVerb other [], []⟩

/-- The request that a verb makes with what follows it. Asking for help makes none. -/
def ofVerb (v : Verb) (after : Reading) : Except Stop Request :=
  let manifest := (after.given.lookup .manifest).getD ""
  match v with
  | .check => return .check manifest
  | .compare => return .compare manifest
  | .apply => return .apply manifest (after.given.any fun (p, _) => p = .dryRun)
  | .show => return .show
  | .version => return .version
  | .help => throw (.page .program)

/-- The options that are set before and after the verb. -/
def optionsOf (before after : Reading) : Options :=
  let value? (p : Parameter) := (after.given.lookup p).or (before.given.lookup p)
  { config := value? .config
    pre := value? .pre
    post := value? .post
    addressMode := (value? .addressMode).bind AddressMode.ofName? }

/-- The request and the options that the arguments of the program give. -/
def ofArgs (args : List String) : Except Stop (Request × Options) := do
  let (before, found) ← Reading.collect .program {} args
  match found with
  | some (.help, words) => throw (helpAbout words)
  | some (v, rest) =>
    let (after, _) ← Reading.collect (.verb v) {} rest
    let after ← Reading.complete (.verb v) after
    let before ← Reading.complete .program before
    return (← ofVerb v after, optionsOf before after)
  | none =>
    let before ← Reading.settled .program before
    if before.given.isEmpty then throw .noArguments
    Reading.refuse .program .noVerb []

end Request

end PacketFilter
