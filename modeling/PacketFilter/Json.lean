/-! # JSON values

The values of JSON text, and the tokens that such text is made of. Objects keep their members in the order of the text,
repeated names included. Numbers without fraction and exponent are integers; other numbers are kept as they are written,
and those that are too great are not kept. A record with named fields may be written as an object or as an array of its
fields in order: `fields?` gives the fields that are written, each under its name. -/

namespace PacketFilter

/-- A JSON value. -/
inductive Json where
  | null
  | bool (b : Bool)
  | int (n : Int)
  /-- A number with a fraction or an exponent, or minus zero, as it is written. -/
  | real (text : String)
  /-- A number beyond every floating-point number: well-formed, but its value is not kept. -/
  | huge
  | str (s : String)
  | arr (items : List Json)
  | obj (members : List (String × Json))
  /-- A string that holds half of a surrogate pair, or an object with such a name: well-formed, but its
  text is not Unicode. -/
  | damaged
deriving Inhabited

namespace Json

def nat (n : Nat) : Json := .int n

/-- An absent text is written as null. -/
def textOrNull : Option String → Json
  | none => .null
  | some s => .str s

def texts (ss : List String) : Json := .arr (ss.map .str)

/-- The pieces of JSON text between blanks. -/
inductive Token where
  | openArray | closeArray | openObject | closeObject | comma | colon
  /-- A value that is neither an array nor an object. -/
  | scalar (v : Json)
deriving Inhabited

/-! ### Tokens of a value -/

mutual

def tokens : Json → List Token
  | .arr items => .openArray :: (itemTokens items ++ [.closeArray])
  | .obj members => .openObject :: (memberTokens members ++ [.closeObject])
  | v => [.scalar v]

/-- The tokens of the items of an array. -/
def itemTokens : List Json → List Token
  | [] => []
  | [v] => tokens v
  | v :: vs => tokens v ++ .comma :: itemTokens vs

/-- The tokens of the members of an object. -/
def memberTokens : List (String × Json) → List Token
  | [] => []
  | [(name, v)] => .scalar (.str name) :: .colon :: tokens v
  | (name, v) :: ms => .scalar (.str name) :: .colon :: (tokens v ++ .comma :: memberTokens ms)

end

end Json

end PacketFilter

/-! ## Records -/

namespace PacketFilter.Json

/-- The fields of a record whose names, in order, are `names`. A name may not be repeated, and names that
are not among them are only accepted if the record is `extensible`. -/
def fields? (names : List String) (extensible : Bool) : Json → Option (List (String × Json))
  | .obj members =>
    let known := members.filter fun m => names.contains m.1
    if (extensible || known.length == members.length) && (known.map Prod.fst).Nodup then some known
    else none
  | .arr items => if items.length ≤ names.length then some (names.zip items) else none
  | _ => none

/-- A field that need not be written. -/
def fieldD {α : Type} (fields : List (String × Json)) (name : String) (default : α)
    (read : Json → Option α) : Option α :=
  match fields.lookup name with
  | none => some default
  | some v => read v

/-- A field that has to be written. -/
def field? {α : Type} (fields : List (String × Json)) (name : String) (read : Json → Option α) :
    Option α :=
  (fields.lookup name).bind read

def asText? : Json → Option String
  | .str s => some s
  | _ => none

def asBool? : Json → Option Bool
  | .bool b => some b
  | _ => none

/-- Null, or what `read` reads. -/
def asOptional? {α : Type} (read : Json → Option α) : Json → Option (Option α)
  | .null => some none
  | v => (read v).map some

/-- An array of what `read` reads. -/
def asList? {α : Type} (read : Json → Option α) : Json → Option (List α)
  | .arr items => items.mapM read
  | _ => none

/-- A name from a fixed set, or an object that has it as its only member, with null as value. -/
def asName? {α : Type} (ofName? : String → Option α) : Json → Option α
  | .str s => ofName? s
  | .obj [(s, .null)] => ofName? s
  | _ => none

end PacketFilter.Json
