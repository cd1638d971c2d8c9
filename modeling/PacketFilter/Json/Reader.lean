import PacketFilter.Json.Text

/-! # Reading JSON

A text is read as its tokens by a machine with a stack. The stack holds the arrays and objects that have
been opened and not closed, each with what it holds so far; the phase says which tokens may come next.
`Json.ofText?` accepts a text exactly if the machine ends with one complete value. -/

namespace PacketFilter.Json

/-- An array or object that is open. What it holds so far stands in reverse. -/
inductive Frame where
  | items (done : List Json)
  /-- An object between two members. `intact` says that all names so far are Unicode. -/
  | members (intact : Bool) (done : List (String × Json))
  /-- An object whose member `name` waits for its value. -/
  | member (intact : Bool) (done : List (String × Json)) (name : String)

/-- What may come next. -/
inductive Phase where
  /-- A value. -/
  | value
  /-- A value, or the end of the array just opened. -/
  | firstItem
  /-- A name, or the end of the object just opened. -/
  | firstName
  /-- A name. -/
  | name
  /-- The colon after a name. -/
  | colon
  /-- A comma, or the end of the innermost array or object. -/
  | rest

/-- Where the machine stands. -/
inductive State where
  | reading (phase : Phase) (frames : List Frame)
  | complete (v : Json)

/-- Puts a complete value into the innermost open frame. -/
def supply (v : Json) : List Frame → State
  | [] => .complete v
  | .items done :: frames => .reading .rest (.items (v :: done) :: frames)
  | .member intact done name :: frames => .reading .rest (.members intact ((name, v) :: done) :: frames)
  | .members intact done :: frames => .reading .rest (.members intact done :: frames)

/-- The object that a frame holds when it is closed. -/
def closeObject (intact : Bool) (done : List (String × Json)) : Json :=
  if intact then .obj done.reverse else .damaged

/-- The state after a token that begins a value. -/
def beginValue (frames : List Frame) : Token → Option State
  | .scalar v => some (supply v frames)
  | .openArray => some (.reading .firstItem (.items [] :: frames))
  | .openObject => some (.reading .firstName (.members true [] :: frames))
  | _ => none

/-- The state after a token where a name may stand. -/
def beginMember (frames : List Frame) : Token → Option State
  | .scalar (.str name) =>
    match frames with
    | .members intact done :: rest => some (.reading .colon (.member intact done name :: rest))
    | _ => none
  | .scalar .damaged =>
    match frames with
    | .members _ done :: rest => some (.reading .colon (.member false done "" :: rest))
    | _ => none
  | _ => none

/-- The state after a token that follows a complete item or member. -/
def afterValue : List Frame → Token → Option State
  | .items done :: frames, .comma => some (.reading .value (.items done :: frames))
  | .items done :: frames, .closeArray => some (supply (.arr done.reverse) frames)
  | .members intact done :: frames, .comma => some (.reading .name (.members intact done :: frames))
  | .members intact done :: frames, .closeObject => some (supply (closeObject intact done) frames)
  | _, _ => none

/-- One step of the machine. -/
def step : State → Token → Option State
  | .reading .value frames, t => beginValue frames t
  | .reading .firstItem frames, t =>
    match t with
    | .closeArray => afterValue frames t
    | _ => beginValue frames t
  | .reading .firstName frames, t =>
    match t with
    | .closeObject => afterValue frames t
    | _ => beginMember frames t
  | .reading .name frames, t => beginMember frames t
  | .reading .colon frames, .colon => some (.reading .value frames)
  | .reading .rest frames, t => afterValue frames t
  | _, _ => none

/-- The value that a list of tokens writes. -/
def ofTokens? (ts : List Token) : Option Json :=
  match ts.foldlM step (.reading .value []) with
  | some (.complete v) => some v
  | _ => none

/-- The value that a text writes. -/
def ofText? (s : String) : Option Json := do
  ofTokens? (← lex? s.toList)

/-! ### Reading back what was written -/

mutual

/-- Whether every string in a value is Unicode and every number is kept. -/
def isIntact : Json → Bool
  | .damaged => false
  | .huge => false
  | .arr items => itemsIntact items
  | .obj members => membersIntact members
  | _ => true

/-- Whether all values of a list are intact. -/
def itemsIntact : List Json → Bool
  | [] => true
  | v :: vs => isIntact v && itemsIntact vs

/-- Whether the values of all members of a list are intact. -/
def membersIntact : List (String × Json) → Bool
  | [] => true
  | (_, v) :: ms => isIntact v && membersIntact ms

end

mutual

/-- How many arrays and objects stand inside each other. -/
def depth : Json → Nat
  | .arr items => itemsDepth items + 1
  | .obj members => membersDepth members + 1
  | _ => 0

/-- The greatest depth in a list of values. -/
def itemsDepth : List Json → Nat
  | [] => 0
  | v :: vs => max (depth v) (itemsDepth vs)

/-- The greatest depth in a list of members. -/
def membersDepth : List (String × Json) → Nat
  | [] => 0
  | (_, v) :: ms => max (depth v) (membersDepth ms)

end

end PacketFilter.Json
