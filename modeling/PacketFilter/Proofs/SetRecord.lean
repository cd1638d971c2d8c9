import PacketFilter.Proofs.FirewallListing
import PacketFilter.Proofs.OneLineTexts
import PacketFilter.Proofs.RuleOrder

/-! # Records and checksums of rule sets

The record of a set is a line for each rule, with its table, its position and its text. No text that a declared rule is
compiled to, or that is read from a file, holds a newline, so the record can be taken apart again: sets of such rules
have the same record exactly if they have the same texts in the same places. A checksum is a digest of the record,
written out without loss, so it tells such sets apart unless their records collide (`RuleSet.record_eq_iff`). -/

namespace PacketFilter

/-! ### Digests as texts -/

namespace Sha256

theorem digitChar_inj {m n : Nat} (hm : m < 16) (hn : n < 16) (h : Nat.digitChar m = Nat.digitChar n) : m = n := by
  have hall : ∀ a b : Fin 16, Nat.digitChar a = Nat.digitChar b → a = b := by decide
  exact congrArg Fin.val (hall ⟨m, hm⟩ ⟨n, hn⟩ h)

theorem eq_of_digits {n x y : ℕ} (hx : x < 16 ^ n) (hy : y < 16 ^ n)
    (h : ∀ i < n, x / 16 ^ i % 16 = y / 16 ^ i % 16) : x = y := by
  induction n generalizing x y with
  | zero => omega
  | succ n ih =>
      rw [pow_succ] at hx hy
      have hlast : x % 16 = y % 16 := by simpa using h 0 (Nat.succ_pos n)
      have hrest : x / 16 = y / 16 := by
        refine ih (by omega) (by omega) fun i hi => ?_
        rw [Nat.div_div_eq_div_mul, Nat.div_div_eq_div_mul, ← pow_succ']
        exact h (i + 1) (Nat.succ_lt_succ hi)
      omega

theorem hexWord_inj {v w : UInt32} : hexWord v = hexWord w ↔ v = w := by
  have hlt : ∀ u : UInt32, u.toNat < 16 ^ 8 := fun u => u.toNat_lt
  refine ⟨fun h => UInt32.toNat_inj.mp (eq_of_digits (hlt v) (hlt w) fun i hi => ?_), fun h => by rw [h]⟩
  have hdigit := congrArg (fun cs => cs[7 - i]?) h
  have hplace : 7 - (7 - i) = i := by omega
  simp only [hexWord, List.getElem?_map, List.getElem?_range (show 7 - i < 8 by omega), Option.map_some,
    Option.some_inj, hplace] at hdigit
  exact digitChar_inj (Nat.mod_lt _ (by decide)) (Nat.mod_lt _ (by decide)) hdigit

theorem flatMap_hexWord_inj {ws ws' : List UInt32} (hl : ws.length = ws'.length) :
    ws.flatMap hexWord = ws'.flatMap hexWord ↔ ws = ws' := by
  refine ⟨fun h => ?_, fun h => by rw [h]⟩
  induction ws generalizing ws' with
  | nil => exact (List.length_eq_zero_iff.mp hl.symm).symm
  | cons w ws ih =>
      obtain ⟨w', ws', rfl⟩ := List.exists_cons_of_length_eq_add_one hl.symm
      rw [List.flatMap_cons, List.flatMap_cons] at h
      obtain ⟨hfirst, hrest⟩ := List.append_inj h (by simp [hexWord])
      rw [hexWord_inj.mp hfirst, ih (Nat.succ.inj hl) hrest]

theorem hex_inj {m m' : List UInt8} : hex m = hex m' ↔ digest m = digest m' := by
  have hl : (digest m).length = (digest m').length := rfl
  rw [hex, hex, String.ofList_inj, flatMap_hexWord_inj hl]

end Sha256

/-! ### Texts as bytes -/

namespace Text

theorem loop_toList_eq (bs : ByteArray) (i : Nat) (r : List UInt8) :
    ByteArray.toList.loop bs i r = r.reverse ++ bs.data.toList.drop i := by
  induction i, r using ByteArray.toList.loop.induct bs with
  | case1 i r hlt ih =>
      have hi : i < bs.data.toList.length := by simpa using hlt
      have hget : bs.get! i = bs.data.toList[i] := by
        rw [ByteArray.get!, Array.getElem_toList]
        exact getElem!_pos bs.data i hi
      rw [ByteArray.toList.loop, if_pos hlt, ih, List.drop_eq_getElem_cons hi, hget]
      simp
  | case2 i r hge =>
      have hle : bs.data.toList.length ≤ i := by simpa using hge
      rw [ByteArray.toList.loop, if_neg hge, List.drop_eq_nil_of_le hle, List.append_nil]

theorem toList_toUTF8_inj {s t : String} : s.toUTF8.toList = t.toUTF8.toList ↔ s = t := by
  have hdata : ∀ bs : ByteArray, bs.toList = bs.data.toList := by
    intro bs
    rw [ByteArray.toList, loop_toList_eq]
    simp
  rw [hdata, hdata, Array.toList_inj, ← ByteArray.ext_iff]
  exact String.toByteArray_inj

end Text

namespace RuleSet

variable {s s' : RuleSet}

/-! ### Sets of rules that were made -/

/-- A set that is finalized from rules with texts that were compiled or read. -/
def IsFinalized (s : RuleSet) : Prop :=
  ∃ (calls : List (List Rule)) (pre post : List Rule),
    (∀ r ∈ calls.flatten ++ pre ++ post, IsMadeText r.text) ∧
      s = (calls.foldl Registry.insert Registry.empty).finalize pre post

/-- Every rule is in its own table, and its text is one line. -/
structure IsRecordable (s : RuleSet) : Prop where
  table : ∀ t, ∀ r ∈ s.rules t, r.table = t
  newline : ∀ t, ∀ r ∈ s.rules t, '\n' ∉ r.text.toList

theorem IsFinalized.isRecordable (h : s.IsFinalized) : s.IsRecordable := by
  obtain ⟨calls, pre, post, hmade, rfl⟩ := h
  have hmem : ∀ t, ∀ r ∈ ((calls.foldl Registry.insert Registry.empty).finalize pre post).rules t,
      r.table = t ∧ r ∈ calls.flatten ++ pre ++ post := by
    intro t r hr
    rw [Registry.rules_finalize, Registry.foldl_insert, Registry.rules_insert, Registry.rules_empty,
      List.nil_append] at hr
    simp only [List.mem_append, List.mem_mergeSort, rulesOf, List.mem_filter, beq_iff_eq] at hr ⊢
    tauto
  exact ⟨fun t r hr => (hmem t r hr).1, fun t r hr => (hmade r (hmem t r hr).2).newline_not_mem⟩

/-! ### Records -/

/-- What a line of a record says: the text at a position of a table. -/
structure RecordEntry where
  table : Table
  position : Nat
  text : String

/-- The line that says it, without its end. -/
def RecordEntry.line (e : RecordEntry) : String :=
  e.table.name ++ " " ++ numberedKey e.position e.text

theorem RecordEntry.line_inj {e f : RecordEntry} : e.line = f.line ↔ e = f := by
  refine ⟨fun h => ?_, fun h => by rw [h]⟩
  have hspace : ∀ t : Table, ' ' ∉ t.name.toList := by
    intro t
    cases t <;> decide
  have hcut : ∀ e : RecordEntry,
      Text.cutList ' ' e.line.toList = some (e.table.name.toList, (numberedKey e.position e.text).toList) :=
    fun e => Text.cutList_eq_some_iff.mpr ⟨by simp [line], hspace e.table⟩
  have hparts := hcut e
  rw [h, hcut f, Option.some_inj, Prod.mk.injEq, String.toList_inj, String.toList_inj] at hparts
  obtain ⟨hname, hkey⟩ := hparts
  have htable : f.table = e.table := by
    rw [← Option.some_inj, ← Table.ofName?_name f.table, hname, Table.ofName?_name]
  obtain ⟨hposition, htext⟩ := numberedKey_inj.mp hkey
  cases e
  cases f
  simp_all

theorem RecordEntry.newline_not_mem_line {e : RecordEntry} (h : '\n' ∉ e.text.toList) : '\n' ∉ e.line.toList := by
  have hname : '\n' ∉ e.table.name.toList := by
    cases e.table <;> decide
  have hposition : '\n' ∉ (toString e.position).toList := Text.Decimal.not_mem_toString rfl e.position
  simp only [line, numberedKey, String.toList_append, List.mem_append, not_or]
  exact ⟨⟨hname, by decide⟩, ⟨hposition, by decide⟩, h⟩

/-- What the record of a set says, table by table. -/
def recorded (s : RuleSet) : List RecordEntry :=
  Table.all.flatMap fun t => ((s.texts t).zipIdx 1).map fun (text, i) => ⟨t, i, text⟩

theorem recorded_inj : s.recorded = s'.recorded ↔ ∀ t, s.texts t = s'.texts t := by
  refine ⟨fun heq t => ?_, fun htexts => by simp only [recorded, htexts]⟩
  have hof : ∀ s : RuleSet, (s.recorded.filter (·.table == t)).map RecordEntry.text = s.texts t := by
    intro s
    rw [recorded, Table.filter_flatMap_all, List.map_map]
    · exact List.zipIdx_map_fst 1 (s.texts t)
    · intro u e he
      obtain ⟨_, -, rfl⟩ := List.mem_map.mp he
      rfl
  rw [← hof s, heq, hof s']

theorem IsRecordable.newline_not_mem (h : s.IsRecordable) : ∀ e ∈ s.recorded, '\n' ∉ e.text.toList := by
  intro e he
  obtain ⟨t, -, he⟩ := List.mem_flatMap.mp he
  obtain ⟨⟨text, i⟩, hmem, rfl⟩ := List.mem_map.mp he
  obtain ⟨r, hr, rfl⟩ := List.mem_map.mp (List.fst_mem_of_mem_zipIdx hmem)
  exact h.newline t r hr

theorem IsRecordable.record_eq (h : s.IsRecordable) :
    s.record = String.join ((s.recorded.map RecordEntry.line).map (· ++ "\n")) := by
  have hlines : s.all.map recordLine = s.recorded.map fun e => e.line ++ "\n" := by
    rw [all, recorded, List.map_flatMap, List.map_flatMap]
    refine List.flatMap_congr fun t _ => ?_
    rw [placed, texts, List.zipIdx_map, List.map_map, List.map_map, List.map_map]
    refine List.map_congr_left fun place hr => ?_
    obtain ⟨r, i⟩ := place
    have htable : r.table = t := h.table t r (List.fst_mem_of_mem_zipIdx hr)
    subst htable
    rfl
  rw [record, hlines, List.map_map]
  rfl

/-- The records of two sets are the same exactly if every table has the same texts in the same order. -/
theorem IsRecordable.record_inj (h : s.IsRecordable) (h' : s'.IsRecordable) :
    s.record = s'.record ↔ ∀ t, s.texts t = s'.texts t := by
  have hlines : ∀ s : RuleSet, s.IsRecordable → ∀ l ∈ s.recorded.map RecordEntry.line, '\n' ∉ l.toList :=
    fun s h => List.forall_mem_map.mpr fun e he => RecordEntry.newline_not_mem_line (h.newline_not_mem e he)
  rw [h.record_eq, h'.record_eq, Text.join_lines_inj (hlines s h) (hlines s' h'),
    List.map_inj_right fun _ _ => RecordEntry.line_inj.mp, recorded_inj]

theorem forall_texts_iff :
    (∀ t, s.texts t = s'.texts t) ↔ s.tables = s'.tables ∧ ∀ t ∈ s.tables, s.texts t = s'.texts t := by
  have hempty : ∀ (s : RuleSet) (t : Table), t ∉ s.tables ↔ s.texts t = [] := by
    intro s t
    rw [mem_tables_iff, not_not, texts, List.map_eq_nil_iff]
  have htables : ∀ s : RuleSet, s.tables = Table.all.filter fun t => ! (s.texts t).isEmpty := by
    intro s
    simp [tables, texts]
  constructor
  · intro h
    exact ⟨by rw [htables, htables]; simp only [h], fun t _ => h t⟩
  · rintro ⟨heq, htexts⟩ t
    by_cases ht : t ∈ s.tables
    · exact htexts t ht
    · rw [(hempty s t).mp ht, (hempty s' t).mp (heq ▸ ht)]

/-- The records of two sets of such rules are the same bytes exactly if the sets have the same tables and in each of
them the same texts in the same order. So are their checksums, if their records do not collide. -/
theorem record_eq_iff (h : s.IsFinalized) (h' : s'.IsFinalized) :
    (s.record.toUTF8.toList = s'.record.toUTF8.toList ↔
      s.tables = s'.tables ∧ ∀ t ∈ s.tables, s.texts t = s'.texts t) ∧
    ((Sha256.digest s.record.toUTF8.toList = Sha256.digest s'.record.toUTF8.toList →
        s.record.toUTF8.toList = s'.record.toUTF8.toList) →
      (s.checksum = s'.checksum ↔ s.tables = s'.tables ∧ ∀ t ∈ s.tables, s.texts t = s'.texts t)) := by
  have hrecord : s.record.toUTF8.toList = s'.record.toUTF8.toList ↔
      s.tables = s'.tables ∧ ∀ t ∈ s.tables, s.texts t = s'.texts t := by
    rw [Text.toList_toUTF8_inj, h.isRecordable.record_inj h'.isRecordable, forall_texts_iff]
  refine ⟨hrecord, fun hcollision => ?_⟩
  rw [checksum, checksum, Sha256.hex_inj, ← hrecord]
  exact ⟨hcollision, congrArg Sha256.digest⟩

def guestSpec : Spec where
  name := "guest"
  protocol := .all

def guestRule : Rule :=
  { table := .filter, chain := "INPUT", name := "guest",
    text := "-A INPUT -m comment --comment \"guest\" -j ACCEPT" }

/-- A file with the text of that rule, and with a rule of another table. -/
def guestFile : String :=
  "-t raw -A OUTPUT -j DROP\n-A INPUT -m comment --comment \"guest\" -j ACCEPT\n"

def guestFileRules : List Rule :=
  [{ table := .raw, chain := "OUTPUT", text := "-A OUTPUT -j DROP", origin := .post },
    { guestRule with name := "", origin := .post }]

/-- The declared rule and the rule of the other table. -/
def guestSet : RuleSet :=
  (Registry.empty.insert [guestRule]).finalize [] (guestFileRules.take 1)

/-- The rules of the file. -/
def guestFileSet : RuleSet :=
  Registry.empty.finalize [] guestFileRules

/-- A declared rule and the same rule in a file make the same record and the same checksum; without the rule of the
other table the record is a different one. -/
theorem record_eq_iff_guest :
    guestSet.IsFinalized ∧ guestFileSet.IsFinalized ∧ (assemble [guestRule] [] []).IsFinalized ∧
      guestSet.record.toUTF8.toList = guestFileSet.record.toUTF8.toList ∧
      guestSet.checksum = guestFileSet.checksum ∧
      guestSet.record.toUTF8.toList ≠ (assemble [guestRule] [] []).record.toUTF8.toList := by
  have hcompile : guestSpec.compile .literal .cidr = .ok [guestRule] := by decide +kernel
  have hparse : RuleFile.parse .post guestFile = guestFileRules := by decide +kernel
  have hdeclared : IsMadeText guestRule.text := .compiled hcompile List.mem_cons_self
  have hfile : ∀ r ∈ guestFileRules, IsMadeText r.text := fun r hr => .read (hparse ▸ hr)
  have hset : guestSet.IsFinalized :=
    ⟨[[guestRule]], [], guestFileRules.take 1,
      List.forall_mem_cons.mpr ⟨hdeclared, fun r hr => hfile r (List.mem_of_mem_take hr)⟩, rfl⟩
  have hfileSet : guestFileSet.IsFinalized := ⟨[], [], guestFileRules, hfile, rfl⟩
  have honly : (assemble [guestRule] [] []).IsFinalized :=
    ⟨[[guestRule]], [], [], List.forall_mem_singleton.mpr hdeclared, rfl⟩
  have hsame : guestSet.tables = guestFileSet.tables ∧
      ∀ t ∈ guestSet.tables, guestSet.texts t = guestFileSet.texts t := by decide +kernel
  have hother : guestSet.tables ≠ (assemble [guestRule] [] []).tables := by decide +kernel
  obtain ⟨hrecord, hchecksum⟩ := record_eq_iff hset hfileSet
  refine ⟨hset, hfileSet, honly, hrecord.mpr hsame, (hchecksum fun _ => hrecord.mpr hsame).mpr hsame, fun heq => ?_⟩
  exact hother ((record_eq_iff hset honly).1.mp heq).1

end RuleSet

end PacketFilter
