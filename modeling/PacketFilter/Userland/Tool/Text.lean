import PacketFilter.Userland.Number
import PacketFilter.Userland.Shell.Field
import PacketFilter.Userland.Shell.State
import PacketFilter.Userland.World

/-! # Programs for texts

`cat`, `head`, `tail`, `wc`, `tr`, `cut`, `sort`, `uniq`, `rev`, `tac` and `tee`. -/

namespace PacketFilter.Tool

open PacketFilter.Shell

/-- What is said about an option that a program does not know. -/
def invalidOption (name : String) (why : String) : String :=
  let letter := (why.toList.getLast?.getD ' ').toString
  name ++ ": invalid option -- '" ++ letter ++ "'\nTry '" ++ name ++ " --help' for more information."

/-- Reads options, which may stand behind other arguments; behind two dashes there are none. -/
def mixedOptions (known : String) : Nat → List String → Except String (List (Char × String) × List String)
  | 0, args => .ok ([], args)
  | fuel + 1, args => do
    let isEnd := args.head? == some "--"
    let (os, rest) ← Options.read known args
    if isEnd then return (os, rest)
    else
      match rest with
      | [] => return (os, [])
      | arg :: rest =>
        if args.contains "--" && ! rest.contains "--" && arg != "--" && args.length == rest.length + 2 then
          return (os, arg :: rest)
        else
          let (more, rest) ← mixedOptions known fuel rest
          return (os ++ more, arg :: rest)

/-- The options and the other arguments of a program. -/
def options (name known : String) (status : Nat) (args : List String) :
    Tool (List (Char × String) × List String) :=
  match mixedOptions known (args.length + 1) args with
  | .ok result => return result
  | .error why => fail status (invalidOption name why)

/-- What is said about a file that cannot be read. -/
def unreadable (name path : String) (why : FileError) : String :=
  let what :=
    if name = "head" ∨ name = "tail" then
      if why = .isDirectory then "error reading '" ++ path ++ "'" else "cannot open '" ++ path ++ "' for reading"
    else if name = "sort" then (if why = .isDirectory then "read failed: " else "cannot read: ") ++ path
    else path
  name ++ ": " ++ what ++ ": " ++ why.text ++ "\n"

/-- The contents of files, or of the input if none are named. What cannot be read is complained about; the second part
of the result says whether all could be. -/
def contents (name : String) (paths : List String) : Tool (List (String × String) × Bool) := do
  let paths := if paths.isEmpty then ["-"] else paths
  let found ← paths.mapM fun path => do
    match ← content path with
    | .ok text => return some (path, text)
    | .error e =>
      complain (unreadable name path e)
      return none
  return (found.filterMap id, found.all Option.isSome)

/-- The lines of a text, without their ends. -/
def linesOf (text : String) : List String :=
  let lines := (Text.splitAt (· == '\n') text.toList).map String.ofList
  if lines.getLast? = some "" then lines.dropLast else lines

/-- Lines with their ends. -/
def unlines (lines : List String) : String :=
  String.join (lines.map (· ++ "\n"))

/-- The lines of a text with their ends; the last one may have none. -/
def pieces (text : String) : List String :=
  let cut := (Text.splitAt (· == '\n') text.toList).map String.ofList
  (cut.dropLast.map (· ++ "\n")) ++ (cut.getLast?.toList.filter (· != ""))

/-! ### Whole files -/

/-- Numbered lines, of which the first has a number. Lines without text may have none. -/
def numbered (allLines : Bool) : Nat → List String → List String
  | _, [] => []
  | n, line :: lines =>
    if ! allLines && line = "\n" then line :: numbered allLines n lines
    else
      let digits := toString n
      (String.ofList (List.replicate (6 - digits.length) ' ') ++ digits ++ "\t" ++ line) ::
        numbered allLines (n + 1) lines

def cat (args : List String) : Tool Nat := do
  let (os, paths) ← options "cat" "nbsuveETAt" 1 args
  let results ← (if paths.isEmpty then ["-"] else paths).mapM fun path => do
    match ← content path with
    | .ok text =>
      let shown := if os.any (·.1 == 'E') then text.replace "\n" "$\n" else text
      let isNumbered := os.any fun o => o.1 == 'n' || o.1 == 'b'
      let shown := if isNumbered then String.join (numbered (! os.any (·.1 == 'b')) 1 (pieces shown)) else shown
      put "cat" shown
      return true
    | .error e =>
      complain (unreadable "cat" path e)
      return false
  return statusOf (results.all id)

def tac (args : List String) : Tool Nat := do
  let (texts, isWell) ← contents "tac" args
  texts.forM fun (_, text) => put "tac" (String.join (pieces text).reverse)
  return statusOf isWell

def rev (args : List String) : Tool Nat := do
  let (texts, isWell) ← contents "rev" args
  texts.forM fun (_, text) => put "rev" (unlines ((linesOf text).map fun l => String.ofList l.toList.reverse))
  return statusOf isWell

/-- The number of lines or bytes that options ask for: with a sign or without one. The second part says that bytes are
meant. -/
def amount (name : String) (os : List (Char × String)) : Tool (String × Bool) := do
  match os.reverse.find? fun o => o.1 == 'n' || o.1 == 'c' with
  | none => return ("10", false)
  | some (letter, text) =>
    let digits := (text.toList.dropWhile fun c => c == '+' || c == '-')
    if digits.isEmpty || ! digits.all Char.isDigit then
      fail 1 (name ++ ": invalid number of " ++ (if letter = 'c' then "bytes" else "lines") ++ ": '" ++ text ++ "'")
    else return (text, letter == 'c')

/-- Arguments in which a number behind a dash asks for so many lines. -/
def withCount : List String → List String
  | [] => []
  | arg :: args =>
    match arg.toList with
    | '-' :: c :: cs =>
      if c.isDigit && cs.all Char.isDigit then ("-n" ++ String.ofList (c :: cs)) :: args else arg :: args
    | _ => arg :: args

/-- Shows parts of files, behind their names if there are several of them. -/
def showParts (name : String) (isQuiet : Bool) (texts : List (String × String)) (part : String → String) :
    Tool Unit := do
  let several := 1 < texts.length && ! isQuiet
  let shown := texts.map fun (path, text) =>
    (if several then "==> " ++ (if path = "-" then "standard input" else path) ++ " <==\n" else "") ++ part text
  put name ((if several then "\n" else "").intercalate shown)

def head (args : List String) : Tool Nat := do
  let (os, paths) ← options "head" "n:c:qv" 1 (withCount args)
  let (text, isBytes) ← amount "head" os
  let n := Text.Decimal.value (text.toList.dropWhile fun c => c == '+' || c == '-')
  let (texts, isWell) ← contents "head" paths
  showParts "head" (os.any (·.1 == 'q')) texts fun content =>
    let take {α : Type} (xs : List α) : List α :=
      if text.startsWith "-" then xs.take (xs.length - n) else xs.take n
    if isBytes then String.ofList (take content.toList) else String.join (take (pieces content))
  return statusOf isWell

def tail (args : List String) : Tool Nat := do
  let (os, paths) ← options "tail" "n:c:qvf" 1 (withCount args)
  let (text, isBytes) ← amount "tail" os
  let n := Text.Decimal.value (text.toList.dropWhile fun c => c == '+' || c == '-')
  let (texts, isWell) ← contents "tail" paths
  showParts "tail" (os.any (·.1 == 'q')) texts fun content =>
    let take {α : Type} (xs : List α) : List α :=
      if text.startsWith "+" then xs.drop (n - 1) else xs.drop (xs.length - n)
    if isBytes then String.ofList (take content.toList) else String.join (take (pieces content))
  return statusOf isWell

def tee (args : List String) : Tool Nat := do
  let (os, paths) ← options "tee" "ai" 1 args
  let text := ((← input).toOption).getD ""
  put "tee" text
  let isWell ← forAll paths fun path => do
    let t ← get
    let access : Access := if os.any (·.1 == 'a') then .append else .write
    match t.world.openFile t.process path access with
    | .ok (opening, world) =>
      match world.write opening (Text.Octets.bytes text) with
      | .ok world =>
        set { t with world }
        return true
      | .error _ => return false
    | .error e =>
      complain (unreadable "tee" path e)
      return false
  return statusOf isWell

/-! ### Counting -/

/-- What `wc` counts in a text: lines, words, characters and bytes. -/
def counts (text : String) : List Nat :=
  let words := ((Text.splitAt Number.isSpacing text.toList).filter (! ·.isEmpty)).length
  [(text.toList.filter (· == '\n')).length, words, text.length, text.length]

def wc (args : List String) : Tool Nat := do
  let (os, paths) ← options "wc" "lwmcL" 1 args
  let (texts, isWell) ← contents "wc" paths
  let chosen (ns : List Nat) : List Nat :=
    let asked := [('l', 0), ('w', 1), ('m', 2), ('c', 3)].filter fun l => os.any (·.1 == l.1)
    let asked := if asked.isEmpty then [0, 1, 3] else asked.map Prod.snd
    asked.map fun i => ns[i]?.getD 0
  let rows := texts.map fun (path, text) => (chosen (counts text), if paths.isEmpty then "" else path)
  let total := (texts.map fun (_, text) => counts text).foldl (List.zipWith (· + ·)) [0, 0, 0, 0]
  let rows := if 1 < paths.length then rows ++ [(chosen total, "total")] else rows
  let single := rows.all fun r => r.1.length == 1
  let bytes := total[3]?.getD 0
  let width :=
    if paths.isEmpty ∨ paths = ["-"] then (if single then 1 else 7)
    else if single && rows.length == 1 then 1
    else (toString bytes).length
  put "wc" (unlines (rows.map fun (ns, path) =>
    let numbers := ns.map fun n =>
      let digits := toString n
      String.ofList (List.replicate (width - digits.length) ' ') ++ digits
    " ".intercalate numbers ++ (if path.isEmpty then "" else " " ++ path)))
  return statusOf isWell

/-! ### Characters -/

/-- The characters that a set of `tr` writes, with escapes, ranges and classes. -/
def trSet : Nat → List Char → List Char
  | 0, _ => []
  | fuel + 1, cs =>
    -- The characters of a range or a single one.
    let range (c : Char) (rest : List Char) : List Char :=
      match rest with
      | '-' :: d :: rest =>
        if c ≤ d then
          (List.range (d.toNat - c.toNat + 1)).map (fun i => Char.ofNat (c.toNat + i)) ++ trSet fuel rest
        else c :: trSet fuel rest
      | rest => c :: trSet fuel rest
    match cs with
    | [] => []
    | '[' :: ':' :: rest =>
      match Shell.Pattern.class? (':' :: rest) with
      | some (holds, rest) => ((List.range 256).map Char.ofNat).filter holds ++ trSet fuel rest
      | none => '[' :: trSet fuel (':' :: rest)
    | '\\' :: c :: rest =>
      let digits := ((c :: rest).take 3).takeWhile (Number.Numeral.isDigit 8)
      if ! digits.isEmpty then
        range (Char.ofNat (Number.Numeral.inBase 8 digits % 256)) ((c :: rest).drop digits.length)
      else
        let d := ([('n', '\n'), ('t', '\t'), ('r', '\r'), ('a', '\x07'), ('b', '\x08'), ('f', '\x0c'),
          ('v', '\x0b')].lookup c).getD c
        range d rest
    | c :: rest => range c rest

/-- Characters in which one of a set stands only once where it would follow itself. -/
def squeezed (set : List Char) : List Char → List Char
  | c :: d :: cs => if c = d ∧ set.contains c then squeezed set (d :: cs) else c :: squeezed set (d :: cs)
  | cs => cs

def tr (args : List String) : Tool Nat := do
  let (os, sets) ← options "tr" "cCdst" 1 args
  let text := (((← input).toOption).getD "").toList
  let has (c : Char) : Bool := os.any (·.1 == c)
  let set (text : String) : List Char := trSet (text.length + 1) text.toList
  match sets with
  | [] => fail 1 "tr: missing operand\nTry 'tr --help' for more information."
  | first :: rest =>
    let source := set first
    let isComplement := has 'c' || has 'C'
    let isIn (c : Char) : Bool := source.contains c != isComplement
    if has 'd' then
      let left := text.filter fun c => ! isIn c
      put "tr" (String.ofList (if has 's' then squeezed (set (rest.headD "")) left else left))
      return 0
    else
      match rest with
      | [] =>
        if has 's' then
          let all := (text.filter isIn).eraseDups
          put "tr" (String.ofList (squeezed all text))
          return 0
        else
          fail 1 ("tr: missing operand after '" ++ first ++
            "'\nTwo strings must be given when translating.\nTry 'tr --help' for more information.")
      | second :: _ =>
        let target := set second
        let last := target.getLast?.getD ' '
        let change (c : Char) : Char :=
          if isComplement then if isIn c then last else c
          else
            match (source.zipIdx.filter (·.1 == c)).getLast? with
            | some (_, i) => target[i]?.getD last
            | none => c
        let changed := text.map change
        put "tr" (String.ofList (if has 's' then squeezed target changed else changed))
        return 0

/-! ### Fields -/

/-- The ranges that a list for `cut` writes: the first number and perhaps the last one of each. -/
def cutRanges (list : String) : List (Nat × Option Nat) :=
  ((Text.splitAt (· == ',') list.toList)).map fun cs =>
    let a := cs.takeWhile (· != '-')
    let low := if a.isEmpty then 1 else Text.Decimal.value a
    if a.length = cs.length then (low, some low)
    else
      let b := cs.drop (a.length + 1)
      (low, if b.isEmpty then none else some (Text.Decimal.value b))

/-- The elements in ranges of places, which are counted from one. -/
def inRanges (ranges : List (Nat × Option Nat)) (xs : List α) : List α :=
  (xs.zipIdx.filter fun (_, i) =>
    ranges.any fun (low, high) => low ≤ i + 1 && high.all (i + 1 ≤ ·)).map Prod.fst

def cut (args : List String) : Tool Nat := do
  let (os, paths) ← options "cut" "b:c:f:d:sn" 1 args
  let (texts, isWell) ← contents "cut" paths
  let text := String.join (texts.map Prod.snd)
  let value? (c : Char) : Option String := (os.reverse.find? (·.1 == c)).map Prod.snd
  match value? 'f', (value? 'c').or (value? 'b') with
  | some list, _ =>
    let delimiter := ((value? 'd').bind fun d => d.toList.head?).getD '\t'
    let ranges := cutRanges list
    let shown := (linesOf text).filterMap fun line =>
      let fields := (Text.splitAt (· == delimiter) line.toList).map String.ofList
      if fields.length = 1 then if os.any (·.1 == 's') then none else some line
      else some (delimiter.toString.intercalate (inRanges ranges fields))
    put "cut" (unlines shown)
    return statusOf isWell
  | none, some list =>
    put "cut" (unlines ((linesOf text).map fun line => String.ofList (inRanges (cutRanges list) line.toList)))
    return statusOf isWell
  | none, none =>
    fail 1 ("cut: you must specify a list of bytes, characters, or fields\n" ++
      "Try 'cut --help' for more information.")

/-! ### Order -/

/-- The number at the start of a line, with a sign and behind blanks. -/
def leadingNumber (line : String) : Int :=
  let (isNegative, cs) := Number.Numeral.sign (line.toList.dropWhile Number.isSpacing)
  let n : Int := Text.Decimal.value (cs.takeWhile Char.isDigit)
  if isNegative then -n else n

/-- Lines of which one stands only once where it would follow itself. -/
def withoutRepeats (same : String → String → Bool) : List String → List String
  | a :: b :: rest =>
    if same a b then withoutRepeats same (a :: rest) else a :: withoutRepeats same (b :: rest)
  | rest => rest
termination_by lines => lines.length

def sort (args : List String) : Tool Nat := do
  let (os, paths) ← options "sort" "nrufbdiMgk:t:o:sc" 2 args
  let (texts, isWell) ← contents "sort" paths
  let has (c : Char) : Bool := os.any (·.1 == c)
  let lines := linesOf (String.join (texts.map fun (_, text) =>
    if text.isEmpty || text.endsWith "\n" then text else text ++ "\n"))
  let delimiter? := ((os.find? (·.1 == 't')).bind fun o => o.2.toList.head?)
  let key (line : String) : String :=
    match os.find? (·.1 == 'k') with
    | none => line
    | some (_, text) =>
      let n := Text.Decimal.value (text.toList.takeWhile Char.isDigit)
      let fields :=
        match delimiter? with
        | some d => Text.splitAt (· == d) line.toList
        | none => (Text.splitAt Number.isSpacing line.toList).filter (! ·.isEmpty)
      String.ofList (fields[n - 1]?.getD [])
  let isNumeric := has 'n' || os.any fun o => o.1 == 'k' && o.2.toList.contains 'n'
  let fold (text : String) : String := if has 'f' then text.map Char.toUpper else text
  let less (a b : String) : Bool :=
    if isNumeric then leadingNumber (key a) < leadingNumber (key b) else fold (key a) < fold (key b)
  let before (a b : String) : Bool :=
    let tied := ! less a b && ! less b a
    let ordered (a b : String) : Bool := less a b || (tied && (a ≤ b || has 's' || has 'u'))
    if has 'r' then ordered b a || (tied && (has 's' || has 'u')) else ordered a b
  let sorted := lines.mergeSort before
  let shown := if has 'u' then withoutRepeats (fun a b => ! less a b && ! less b a) sorted else sorted
  put "sort" (unlines shown)
  return if isWell then 0 else 2

/-- Lines with the number of times that each of them stands in a row. -/
def counted (lines : List String) : List (Nat × String) :=
  (lines.foldl (fun found line =>
    match found with
    | (n, last) :: found => if last = line then (n + 1, last) :: found else (1, line) :: (n, last) :: found
    | [] => [(1, line)]) []).reverse

def uniq (args : List String) : Tool Nat := do
  let (os, paths) ← options "uniq" "cdui" 1 args
  let (texts, isWell) ← contents "uniq" (paths.take 1)
  let has (c : Char) : Bool := os.any (·.1 == c)
  let rows := counted (linesOf (String.join (texts.map Prod.snd)))
  let rows := rows.filter fun (n, _) => (! has 'd' || 1 < n) && (! has 'u' || n = 1)
  put "uniq" (unlines (rows.map fun (n, line) =>
    if has 'c' then
      let digits := toString n
      String.ofList (List.replicate (7 - digits.length) ' ') ++ digits ++ " " ++ line
    else line))
  return statusOf isWell

end PacketFilter.Tool
