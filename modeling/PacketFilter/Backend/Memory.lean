import PacketFilter.Backend
import PacketFilter.Listing

/-! # A packet filter in memory

A `Firewall` holds its live rules as a list for each table, in the order in which they were appended. It
lists them like the real programs do: chain after chain, every word bare that needs no quotes. Commands
that succeed are logged. A `Firewall` can be told to refuse all commands whose text holds a given piece of
text. -/

namespace PacketFilter

/-- A live rule: its chain, and the text that appended it. -/
structure Slot where
  chain : String
  text : String
deriving DecidableEq

/-- A packet filter in memory. -/
structure Firewall where
  /-- The rules of each table, in the order in which they were appended. -/
  slots : Table → List Slot := fun _ => []
  /-- The commands that succeeded. -/
  log : List Command := []
  /-- How often the rules were listed. -/
  listed : Nat := 0
  /-- Commands whose text holds this are refused. -/
  refused : Option String := none
  /-- The version that it gives for itself. -/
  version : String := "iptables v1.8.9 (legacy)"

namespace Firewall

/-- The firewall whose live rules are those of a listing. -/
def ofListing (raw : String) : Firewall where
  slots t :=
    ((Listing.rules raw).filter (·.table == t)).map fun r =>
      ⟨(appendedChain? r.line).getD "", r.line⟩

/-- A firewall with other rules in one table. -/
def setSlots (w : Firewall) (t : Table) (slots : List Slot) : Firewall :=
  { w with slots := fun u => if u = t then slots else w.slots u }

/-! ### Listing -/

/-- Rules in the order of a listing: by the place of their chain, and otherwise as they stand. -/
def inListingOrder (slots : List Slot) : List Slot :=
  slots.mergeSort fun a b => Chain.rankOf a.chain ≤ Chain.rankOf b.chain

/-- Whether a text is listed without quotes even if it was given with them. -/
def isPlain (text : String) : Bool :=
  ! text.toList.isEmpty && text.toList.all fun c => c.isAlphanum || c == '_' || c == '-'

/-- A text in the quotes of a listing: quotes of both kinds and backslashes have a backslash in front. -/
def listedQuote (text : String) : String :=
  let inside := text.toList.flatMap fun c =>
    if c = '"' ∨ c = '\\' ∨ c = '\'' then ['\\', c] else [c]
  String.ofList ('"' :: inside ++ ['"'])

def listedWord (w : Word) : String :=
  if ! w.quoted || isPlain w.text then w.text else listedQuote w.text

def listedText (text : String) : String :=
  Text.unwords ((Word.read text).map listedWord)

/-- The texts of the live rules of a table, in listing order. -/
def rules (w : Firewall) (t : Table) : List String :=
  (inListingOrder (w.slots t)).map Slot.text

/-- The lines of the section of a table. -/
def sectionLines (w : Firewall) (t : Table) : List String :=
  ("*" ++ t.name) :: ((Chain.all.filter (·.isIn t)).map fun c => ":" ++ c.name ++ " ACCEPT [0:0]") ++
    (w.rules t).map listedText ++ ["COMMIT"]

def listingLines (w : Firewall) : List String :=
  "# Generated by iptables-save v1.8.9" :: Table.all.flatMap w.sectionLines

/-- The listing of the live rules. -/
def listing (w : Firewall) : String :=
  String.join (w.listingLines.map (· ++ "\n"))

/-! ### Commands -/

/-- The failure of a command with an exit code of 1. -/
def failed (c : Command) (reason : String) : Failure :=
  .command c.text reason (some 1)

/-- The rules after a command, if it can be carried out. -/
def apply (w : Firewall) (c : Command) : Except Failure Firewall :=
  match c with
  | .append t rule =>
    match appendedChain? rule with
    | some chain => .ok (w.setSlots t (w.slots t ++ [⟨chain, rule⟩]))
    | none => .error (.internal ("not an append: " ++ rule))
  | .delete t rule =>
    match eraseNth (fun slot => arguments slot.text == arguments rule) 0 (w.slots t) with
    | some rest => .ok (w.setSlots t rest)
    | none =>
      .error (failed c "iptables: Bad rule (does a matching rule exist in that chain?).")
  | .deleteAt t chain position =>
    match eraseNth (fun slot => slot.chain == chain) (position - 1) (w.slots t) with
    | some rest => .ok (w.setSlots t rest)
    | none => .error (failed c "iptables: Index of deletion too big.")
  | .persist _ => .ok w

/-- Whether a firewall refuses a command. -/
def refuses (w : Firewall) (c : Command) : Bool :=
  w.refused.any fun piece => Text.contains piece c.text

/-- Carries out a command and logs it. -/
def run (c : Command) : Action Firewall Unit := fun w =>
  if w.refuses c then .error (failed c "iptables: simulated failure.") w
  else
    match w.apply c with
    | .error e => .error e w
    | .ok w' => .ok () { w' with log := w.log ++ [c] }

def list : Action Firewall String := fun w =>
  .ok w.listing { w with listed := w.listed + 1 }

/-! ### Rank -/

/-- The number of live rules. -/
def size (w : Firewall) : Nat :=
  (Table.all.flatMap w.slots).length

theorem size_setSlots_lt {w : Firewall} {t : Table} {slots : List Slot}
    (h : slots.length + 1 = (w.slots t).length) : (w.setSlots t slots).size + 1 = w.size := by
  cases t <;> simp [size, setSlots, Table.all, ← h] <;> omega

theorem size_run_delete {w w' : Firewall} {t : Table} {rule : String}
    (h : run (.delete t rule) w = .ok () w') : w'.size + 1 = w.size := by
  simp only [run, apply] at h
  split at h
  · simp at h
  · split at h
    · simp at h
    · rename_i w₁ hw
      split at hw
      · rename_i rest hrest
        simp only [Except.ok.injEq] at hw
        simp only [EStateM.Result.ok.injEq, true_and] at h
        subst hw h
        exact size_setSlots_lt (length_eraseNth hrest)
      · simp at hw

instance : Backend Firewall where
  version w := .ok w.version w
  list := list
  run := run
  rank := size
  rank_delete _ h := by have := size_run_delete h; omega
  rank_lt _ hl h := by
    simp only [list, EStateM.Result.ok.injEq] at hl
    have := size_run_delete h
    have e := congrArg size hl.2
    simp only [size] at e this ⊢
    omega

end Firewall

end PacketFilter
