import PacketFilter.Proofs.CheckedValues

/-! # Accepted declarations

The checks of a declared rule, apart from those of its addresses, amount to conditions on its values
(`Spec.IsAdmissible`), and what an accepted rule is written with is known from its values too (`Spec.matchParts`). Every
check and every group of clauses has one statement that says when it accepts and what it gives, and the statement for
all clauses is put together from these (`Spec.matchClauses_eq_ok_iff`). -/

namespace PacketFilter

/-! ### Single values -/

/-- One or more ASCII digits. -/
def IsDigits (s : String) : Prop :=
  s ≠ "" ∧ ∀ c ∈ s.toList, c.isDigit = true

/-- The name of a rule: at least one character, of ASCII letters and digits, spaces, hyphens and underscores. -/
def IsRuleName (s : String) : Prop :=
  s ≠ "" ∧ ∀ c ∈ s.toList, c.isAlphanum = true ∨ c ∈ [' ', '-', '_']

/-- A rate: a number, a slash and a unit. -/
def IsRate (s : String) : Prop :=
  ∃ count unit, s = count ++ "/" ++ unit ∧ IsDigits count ∧ unit ∈ ["sec", "min", "hour", "day"]

/-- One to three digits. -/
def IsIcmpNumber (s : String) : Prop :=
  IsDigits s ∧ s.toList.length ≤ 3

/-- The type of a control message: its number, its number and code, or one of the names, in letters of either case. -/
def IsIcmpType (s : String) : Prop :=
  IsIcmpNumber s ∨ (∃ type code, s = type ++ "/" ++ code ∧ IsIcmpNumber type ∧ IsIcmpNumber code) ∨
    ∃ entry ∈ Icmp.names, Icmp.sameName entry.1 s = true

/-- The value of an option of a jump: no blanks, no double and no single quotes. -/
def IsOptionText (s : String) : Prop :=
  ∀ c ∈ s.toList, Text.isBlank c = false ∧ c ≠ '"' ∧ c ≠ '\''

instance (s : String) : Decidable (IsOptionText s) :=
  decidable_of_decidable_of_iff
    (p := s.toList.all (fun c => Text.isBlank c == false && c != '"' && c != '\'') = true)
    (by simp [IsOptionText, and_assoc])

/-- The prefix of log lines: no control characters, no double quotes and no backslashes. -/
def IsLogText (s : String) : Prop :=
  ∀ c ∈ s.toList, Text.isControl c = false ∧ c ≠ '"' ∧ c ≠ '\\'

theorem isNumeral_iff_isDigits {s : String} : Text.Decimal.isNumeral s.toList = true ↔ IsDigits s := by
  simp [Text.Decimal.isNumeral, IsDigits]

theorem IsDigits.slash_not_mem {s : String} (h : IsDigits s) : '/' ∉ s.toList := by
  intro hc
  have := h.2 _ hc
  revert this
  decide

/-! ### Single values as words -/

theorem IsDigits.isOperand {s : String} (h : IsDigits s) : IsOperand s :=
  isOperandChar_of_isNumeral (isNumeral_iff_isDigits.mpr h)

theorem IsRate.isOperand {s : String} (h : IsRate s) : IsOperand s := by
  have hunits : ∀ unit ∈ rateUnits, IsOperand unit := by decide
  obtain ⟨count, unit, rfl, hcount, hunit⟩ := h
  exact (hcount.isOperand.append (by decide)).append (hunits unit hunit)

theorem IsOptionText.isToken {s : String} (h : IsOptionText s) (hne : s ≠ "") : IsToken s := by
  refine ⟨fun hnil => hne (String.toList_inj.mp hnil), fun c hc => ?_⟩
  obtain ⟨hblank, hquote, -⟩ := h c hc
  exact ⟨hblank, hquote⟩

theorem IsRuleName.newline_not_mem {s : String} (h : IsRuleName s) : '\n' ∉ s.toList := by
  intro hn
  have := h.2 _ hn
  revert this
  decide

/-! ### Checks of single values -/

namespace Check

theorem name_eq_ok_iff {s : String} : Check.name s = .ok () ↔ IsRuleName s := by
  simp [Check.name, IsRuleName, bind_eq_ok, isAlphanumeric, or_assoc]

theorem limit_eq_ok_iff {s : String} : Check.limit s = .ok () ↔ IsRate s := by
  have hslash : "/" = String.singleton '/' := by decide
  unfold Check.limit IsRate
  rw [hslash]
  constructor
  · intro h
    split at h
    · cases h
    · rename_i count unit hcut
      simp only [bind_eq_ok, require_eq_ok_iff, isNumeral_iff_isDigits] at h
      obtain ⟨-, hcount, hunit⟩ := h
      exact ⟨count, unit, (Text.cut_eq_some_iff.mp hcut).1, hcount, List.contains_iff_mem.mp hunit⟩
  · rintro ⟨count, unit, hs, hcount, hunit⟩
    rw [Text.cut_eq_some_iff.mpr ⟨hs, hcount.slash_not_mem⟩]
    simp only [bind_eq_ok, require_eq_ok_iff, isNumeral_iff_isDigits]
    exact ⟨(), hcount, List.contains_iff_mem.mpr hunit⟩

theorem burst_eq_ok_iff {s : String} {limit : Option String} :
    Check.burst s limit = .ok () ↔ IsDigits s ∧ limit ≠ none := by
  simp [Check.burst, bind_eq_ok, isNumeral_iff_isDigits, Option.isSome_iff_ne_none, and_comm]

theorem option_eq_ok_iff {field s : String} : Check.option field s = .ok () ↔ IsOptionText s := by
  simp [Check.option, IsOptionText, and_assoc]

theorem logPrefix_eq_ok_iff {s : String} : Check.logPrefix s = .ok () ↔ IsLogText s := by
  simp [Check.logPrefix, IsLogText, and_assoc]

theorem states_eq_ok_iff {ss states : List String} :
    Check.states ss = .ok states ↔
      (∀ state ∈ ss, state ∈ connectionStates) ∧ connectionStates.filter ss.contains = states := by
  simp [Check.states, bind_eq_ok, pure, Except.pure]

end Check

namespace Icmp

theorem isNumber_iff {s : String} : isNumber s.toList = true ↔ IsIcmpNumber s := by
  simp [isNumber, IsIcmpNumber, isNumeral_iff_isDigits]

theorem isNumeric_iff {s : String} :
    isNumeric s = true ↔
      IsIcmpNumber s ∨ ∃ type code, s = type ++ "/" ++ code ∧ IsIcmpNumber type ∧ IsIcmpNumber code := by
  unfold isNumeric
  cases hcut : Text.cutList '/' s.toList with
  | none =>
      have hslash := Text.cutList_eq_none_iff.mp hcut
      simp only [isNumber_iff, iff_self_or]
      rintro ⟨type, code, rfl, -⟩
      simp at hslash
  | some parts =>
      obtain ⟨type, code⟩ := parts
      obtain ⟨hs, htype⟩ := Text.cutList_eq_some_iff.mp hcut
      have hparts := fun cs : List Char => isNumber_iff (s := String.ofList cs)
      simp only [String.toList_ofList] at hparts
      simp only [Bool.and_eq_true, hparts]
      constructor
      · intro h
        refine .inr ⟨_, _, String.toList_inj.mp ?_, h⟩
        simpa using hs
      · rintro (h | ⟨type', code', rfl, htype', hcode'⟩)
        · exact absurd (hs ▸ by simp) h.1.slash_not_mem
        · have hcut' : Text.cutList '/' (type' ++ "/" ++ code').toList = some (type'.toList, code'.toList) :=
            Text.cutList_eq_some_iff.mpr ⟨by simp, htype'.1.slash_not_mem⟩
          rw [hcut] at hcut'
          obtain ⟨rfl, rfl⟩ := Prod.mk.inj (Option.some.inj hcut')
          simpa using ⟨htype', hcode'⟩

theorem exists_code?_iff {s : String} : (∃ code, code? s = some code) ↔ IsIcmpType s := by
  unfold code? IsIcmpType
  rw [← or_assoc, ← isNumeric_iff]
  cases isNumeric s with
  | true => simp
  | false =>
      simp only [Bool.false_eq_true, if_false, false_or]
      rw [← Option.isSome_iff_exists, Option.isSome_map, List.find?_isSome]

end Icmp

theorem forM_eq_ok_iff {α ε : Type} {f : α → Except ε Unit} {xs : List α} :
    forM xs f = .ok () ↔ ∀ x ∈ xs, f x = .ok () := by
  induction xs with
  | nil => exact iff_of_true rfl (by simp)
  | cons x xs ih => simp only [List.forM_cons, bind_eq_ok, exists_unit_iff, ih, List.forall_mem_cons]

/-! ### Clauses of matches -/

/-- The ports of a choice as rule text writes them. -/
def Ports.value (p : Ports) : String :=
  ",".intercalate p.entries

/-- The clauses of a choice of ports: one entry has the flag `single`, a list has a module and the flag `several`. -/
def Ports.parts (single several : Flag) (p : Ports) : List Clause :=
  match p with
  | .single _ => [⟨single, p.value⟩]
  | .list _ => [.module "multiport", ⟨several, p.value⟩]

namespace Spec

variable {s : Spec} {clauses : List Clause}

def interfaceParts (s : Spec) : List Clause :=
  (s.inInterface.map (Clause.mk .inInterface)).toList ++ (s.outInterface.map (Clause.mk .outInterface)).toList

/-- The protocol that a rule names, and the module of a protocol that has one. -/
def protocolParts (s : Spec) : List Clause :=
  (if s.protocol = .all then [] else [⟨.protocol, s.protocol.name⟩]) ++
    (if s.protocol ∈ [.all, .vrrp, .igmp] then [] else [.module s.protocol.name])

def portParts (s : Spec) : List Clause :=
  s.sourcePorts.elim [] (Ports.parts .sourcePort .sourcePorts) ++
    s.destinationPorts.elim [] (Ports.parts .destinationPort .destinationPorts)

/-- The type that rule text writes for a control message. -/
def icmpValue (s : Spec) : String :=
  match s.icmpType with
  | none => "any"
  | some name => (Icmp.code? name).getD ""

/-- The type of a control message, whether or not the rule sets one; other protocols have none. -/
def icmpParts (s : Spec) : List Clause :=
  if s.protocol = .icmp then [⟨.icmpType, s.icmpValue⟩] else []

/-- The connection states that a rule names, in the order of a listing. -/
def stateParts (s : Spec) : List Clause :=
  if s.states = [] then []
  else [.module "state", ⟨.state, ",".intercalate (connectionStates.filter s.states.contains)⟩]

/-- The rate of a rule, and how much it may be exceeded at once. -/
def limitParts (s : Spec) : List Clause :=
  s.limit.elim [] (fun limit => [.module "limit", ⟨.limit, limit⟩]) ++
    (s.burst.map (Clause.mk .limitBurst)).toList

/-- A choice of ports is allowed for the protocols that have ports, if every entry is a port or a range, and a list has
no more than fifteen of them. -/
structure AllowsPorts (s : Spec) (p : Ports) : Prop where
  protocol : s.protocol = .tcp ∨ s.protocol = .udp
  entries : ∀ entry ∈ p.entries, Check.portEntry entry = .ok ()
  length : ∀ entries, p = .list entries → entries.length ≤ 15

theorem interfaceClause_eq_ok_iff {flag : Flag} {seen : Bool} {unseen : Violation} {name : Option String} :
    interfaceClause flag seen unseen name = .ok clauses ↔
      (∀ value ∈ name, seen = true ∧ Check.interface value = .ok ()) ∧
        (name.map (Clause.mk flag)).toList = clauses := by
  cases name with
  | none => simp [interfaceClause]
  | some value => simp [interfaceClause, bind_eq_ok, exists_unit_iff, pure, Except.pure, and_assoc]

theorem interfaceClauses_eq_ok_iff :
    s.interfaceClauses = .ok clauses ↔
      ((∀ name ∈ s.inInterface, s.chain ∈ [.input, .forward, .prerouting] ∧ Check.interface name = .ok ()) ∧
        ∀ name ∈ s.outInterface, s.chain ∈ [.output, .forward, .postrouting] ∧ Check.interface name = .ok ()) ∧
        s.interfaceParts = clauses := by
  have hin : s.chain.seesInInterface = true ↔ s.chain ∈ [.input, .forward, .prerouting] := by
    cases s.chain <;> decide
  have hout : s.chain.seesOutInterface = true ↔ s.chain ∈ [.output, .forward, .postrouting] := by
    cases s.chain <;> decide
  unfold interfaceClauses interfaceParts
  simp only [bind_eq_ok, interfaceClause_eq_ok_iff, hin, hout, pure, Except.pure, Except.ok.injEq]
  constructor
  · rintro ⟨_, ⟨hins, rfl⟩, _, ⟨houts, rfl⟩, rfl⟩
    exact ⟨⟨hins, houts⟩, rfl⟩
  · rintro ⟨⟨hins, houts⟩, rfl⟩
    exact ⟨_, ⟨hins, rfl⟩, _, ⟨houts, rfl⟩, rfl⟩

theorem allowsPorts_iff {p : Ports} :
    s.AllowsPorts p ↔ s.protocol.hasPorts = true ∧ (∀ entry ∈ p.entries, Check.portEntry entry = .ok ()) ∧
      ∀ entries, p = .list entries → entries.length ≤ maxPortEntries := by
  have hprotocol : s.protocol.hasPorts = true ↔ s.protocol = .tcp ∨ s.protocol = .udp := by
    cases s.protocol <;> decide
  rw [hprotocol]
  exact ⟨fun h => ⟨h.protocol, h.entries, h.length⟩, fun h => ⟨h.1, h.2.1, h.2.2⟩⟩

theorem portsClause_eq_ok_iff {field : String} {single several : Flag} {ports : Option Ports} :
    s.portsClause field single several ports = .ok clauses ↔
      (∀ p ∈ ports, s.AllowsPorts p) ∧ ports.elim [] (Ports.parts single several) = clauses := by
  cases ports with
  | none => simp [portsClause]
  | some ports =>
      cases ports with
      | single entry =>
          simp [portsClause, bind_eq_ok, exists_unit_iff, pure, Except.pure, allowsPorts_iff, Ports.parts, Ports.value,
            Ports.entries, and_assoc]
      | list entries =>
          simp [portsClause, bind_eq_ok, exists_unit_iff, forM_eq_ok_iff, pure, Except.pure, allowsPorts_iff,
            Ports.parts, Ports.value, Ports.entries, and_assoc, and_left_comm]

theorem portClauses_eq_ok_iff :
    s.portClauses = .ok clauses ↔
      ((∀ p ∈ s.sourcePorts, s.AllowsPorts p) ∧ ∀ p ∈ s.destinationPorts, s.AllowsPorts p) ∧
        s.portParts = clauses := by
  unfold portClauses portParts
  simp only [bind_eq_ok, portsClause_eq_ok_iff, pure, Except.pure, Except.ok.injEq]
  constructor
  · rintro ⟨_, ⟨hfrom, rfl⟩, _, ⟨hto, rfl⟩, rfl⟩
    exact ⟨⟨hfrom, hto⟩, rfl⟩
  · rintro ⟨⟨hfrom, hto⟩, rfl⟩
    exact ⟨_, ⟨hfrom, rfl⟩, _, ⟨hto, rfl⟩, rfl⟩

theorem icmpClauses_eq_ok_iff :
    s.icmpClauses = .ok clauses ↔
      (s.protocol = .icmp → ∀ name ∈ s.icmpType, IsIcmpType name) ∧ s.icmpParts = clauses := by
  unfold icmpClauses icmpParts icmpValue
  by_cases hicmp : s.protocol = .icmp
  · cases hname : s.icmpType with
    | none => simp [hicmp]
    | some name =>
        have hknown := Icmp.exists_code?_iff (s := name)
        cases hcode : Icmp.code? name with
        | none => simp_all
        | some code => simp_all
  · simp [hicmp]

theorem stateClauses_eq_ok_iff :
    s.stateClauses = .ok clauses ↔ (∀ state ∈ s.states, state ∈ connectionStates) ∧ s.stateParts = clauses := by
  unfold stateClauses stateParts
  cases hstates : s.states with
  | nil => simp
  | cons state states => simp [bind_eq_ok, Check.states_eq_ok_iff, pure, Except.pure]

theorem limitClauses_eq_ok_iff :
    s.limitClauses = .ok clauses ↔
      ((∀ limit ∈ s.limit, IsRate limit) ∧ ∀ burst ∈ s.burst, IsDigits burst ∧ s.limit ≠ none) ∧
        s.limitParts = clauses := by
  unfold limitClauses limitParts
  cases s.limit <;> cases s.burst <;>
    simp [bind_eq_ok, exists_unit_iff, Check.limit_eq_ok_iff, Check.burst_eq_ok_iff, pure, Except.pure, and_assoc]

/-! ### Options of jumps -/

theorem requiredOption_eq_ok_iff {flag : Flag} {field : String} {value : Option String} :
    s.requiredOption flag field value = .ok clauses ↔
      (∃ text ∈ value, IsOptionText text) ∧ (value.map (Clause.mk flag)).toList = clauses := by
  unfold requiredOption
  cases value with
  | none => simp
  | some text => simp [bind_eq_ok, exists_unit_iff, Check.option_eq_ok_iff, pure, Except.pure]

theorem logOptions_eq_ok_iff :
    s.logOptions = .ok clauses ↔
      ((∀ level ∈ s.logLevel, IsOptionText level) ∧ ∀ start ∈ s.logPrefix, IsLogText start) ∧
        (s.logLevel.map (Clause.mk .logLevel)).toList ++
          (s.logPrefix.map fun start => ⟨.logPrefix, Word.quote (keptPrefix start)⟩).toList = clauses := by
  have hquote : ∀ start, IsLogText start → logPrefixValue start = Word.quote (keptPrefix start) := fun start h =>
    (logPrefixValue_eq_quote (Check.logPrefix_eq_ok_iff.mpr h)).1
  unfold logOptions
  cases s.logLevel <;> cases s.logPrefix <;>
    simp +contextual [bind_eq_ok, exists_unit_iff, Check.option_eq_ok_iff, Check.logPrefix_eq_ok_iff, pure, Except.pure,
      and_assoc, hquote]

/-- What a jump asks for: the table it belongs to, the options it cannot do without, and that its options are texts
that can stand in rule text. -/
def AllowsJump (s : Spec) : Prop :=
  match s.jump with
  | .dnat => s.table = .nat ∧ ∃ value ∈ s.toDestination, IsOptionText value
  | .snat => s.table = .nat ∧ ∃ value ∈ s.toSource, IsOptionText value
  | .redirect => ∃ value ∈ s.toPorts, IsOptionText value
  | .masquerade => s.table = .nat
  | .reject => ∀ value ∈ s.rejectWith, IsOptionText value
  | .log => (∀ level ∈ s.logLevel, IsOptionText level) ∧ ∀ start ∈ s.logPrefix, IsLogText start
  | .accept | .drop => True

/-- The options that a jump is written with, with their plain values. Options of other jumps are left out. -/
def jumpParts (s : Spec) : List Clause :=
  match s.jump with
  | .dnat => (s.toDestination.map (Clause.mk .toDestination)).toList
  | .snat => (s.toSource.map (Clause.mk .toSource)).toList
  | .redirect => (s.toPorts.map (Clause.mk .toPorts)).toList
  | .reject => [⟨.rejectWith, s.rejectWith.getD "icmp-port-unreachable"⟩]
  | .log =>
    (s.logLevel.map (Clause.mk .logLevel)).toList ++
      (s.logPrefix.map fun start => Clause.mk .logPrefix (keptPrefix start)).toList
  | .masquerade | .accept | .drop => []

end Spec

/-! ### All clauses -/

namespace Clause

/-- A clause as rule text writes it: the value stands in quotes if the flag asks for them. -/
def written (c : Clause) : Clause :=
  if c.flag.quotesValue then ⟨c.flag, Word.quote c.value⟩ else c

def ArePlain (cs : List Clause) : Prop :=
  ∀ c ∈ cs, c.flag.quotesValue = false

theorem ArePlain.map_written {cs : List Clause} (h : ArePlain cs) : cs.map written = cs := by
  have hwritten : ∀ c ∈ cs, c.written = c := by
    intro c hc
    simp [written, h c hc]
  rw [List.map_congr_left hwritten, List.map_id']

theorem arePlain_toList {flag : Flag} {value : Option String} (hf : flag.quotesValue = false) :
    ArePlain (value.map (Clause.mk flag)).toList := by
  cases value <;> simp [ArePlain, hf]

theorem arePlain_ports {single several : Flag} {ports : Option Ports}
    (hf : single.quotesValue = false ∧ several.quotesValue = false) :
    ArePlain (ports.elim [] (Ports.parts single several)) := by
  cases ports with
  | none => simp [ArePlain]
  | some p =>
      cases p with
      | single => simp [ArePlain, Ports.parts, hf]
      | list => exact List.forall_mem_cons.mpr ⟨rfl, by simp [hf]⟩

end Clause

namespace Spec

variable {s : Spec} {clauses : List Clause}

theorem jumpOptions_eq_ok_iff :
    s.jumpOptions = .ok clauses ↔ s.AllowsJump ∧ s.jumpParts.map Clause.written = clauses := by
  unfold jumpOptions AllowsJump jumpParts
  cases hjump : s.jump with
  | accept | drop => simp
  | dnat | snat =>
      rw [(Clause.arePlain_toList rfl).map_written]
      simp [bind_eq_ok, requireNat, requiredOption_eq_ok_iff, and_assoc]
  | redirect =>
      rw [(Clause.arePlain_toList rfl).map_written]
      exact requiredOption_eq_ok_iff
  | masquerade => simp [bind_eq_ok, requireNat, pure, Except.pure]
  | reject =>
      have hdefault : IsOptionText "icmp-port-unreachable" := by decide
      cases s.rejectWith <;>
        simp [bind_eq_ok, exists_unit_iff, Check.option_eq_ok_iff, defaultReject, hdefault, Clause.written,
          Flag.quotesValue, pure, Except.pure]
  | log =>
      rw [logOptions_eq_ok_iff, List.map_append, (Clause.arePlain_toList rfl).map_written]
      cases s.logPrefix <;> simp [Clause.written, Flag.quotesValue]

/-- What a declared rule says besides its addresses, as flags with plain values in the order of a listing. -/
def matchParts (s : Spec) : List Clause :=
  s.interfaceParts ++ s.protocolParts ++ s.portParts ++ s.icmpParts ++ s.stateParts ++
    [.module "comment", ⟨.comment, s.name⟩] ++ s.limitParts ++ ⟨.jump, s.jump.name⟩ :: s.jumpParts

/-- The values of a declared rule, apart from its name and its addresses, are allowed, each of them and together. -/
structure IsAdmissible (s : Spec) : Prop where
  inInterface : ∀ name ∈ s.inInterface,
    s.chain ∈ [.input, .forward, .prerouting] ∧ Check.interface name = .ok ()
  outInterface : ∀ name ∈ s.outInterface,
    s.chain ∈ [.output, .forward, .postrouting] ∧ Check.interface name = .ok ()
  sourcePorts : ∀ p ∈ s.sourcePorts, s.AllowsPorts p
  destinationPorts : ∀ p ∈ s.destinationPorts, s.AllowsPorts p
  icmpType : s.protocol = .icmp → ∀ name ∈ s.icmpType, IsIcmpType name
  states : ∀ state ∈ s.states, state ∈ connectionStates
  limit : ∀ limit ∈ s.limit, IsRate limit
  burst : ∀ burst ∈ s.burst, IsDigits burst ∧ s.limit ≠ none
  jump : s.AllowsJump

theorem protocolClauses_eq : s.protocolClauses = s.protocolParts := by
  unfold protocolClauses protocolParts
  cases s.protocol <;> rfl

/-- Of all values only the name is put in quotes, and the prefix of log lines. -/
theorem map_written_matchParts :
    s.matchParts.map Clause.written =
      s.interfaceParts ++ s.protocolParts ++ s.portParts ++ s.icmpParts ++ s.stateParts ++ s.commentClauses ++
        s.limitParts ++ ⟨.jump, s.jump.name⟩ :: s.jumpParts.map Clause.written := by
  have hinterfaces : Clause.ArePlain s.interfaceParts :=
    List.forall_mem_append.mpr ⟨Clause.arePlain_toList rfl, Clause.arePlain_toList rfl⟩
  have hprotocol : Clause.ArePlain s.protocolParts := by
    unfold Clause.ArePlain protocolParts
    cases s.protocol <;> decide
  have hports : Clause.ArePlain s.portParts :=
    List.forall_mem_append.mpr ⟨Clause.arePlain_ports ⟨rfl, rfl⟩, Clause.arePlain_ports ⟨rfl, rfl⟩⟩
  have hicmp : Clause.ArePlain s.icmpParts := by
    unfold Clause.ArePlain icmpParts
    split <;> simp [Flag.quotesValue]
  have hstates : Clause.ArePlain s.stateParts := by
    unfold Clause.ArePlain stateParts
    split <;> simp [Clause.module, Flag.quotesValue]
  have hlimits : Clause.ArePlain s.limitParts := by
    refine List.forall_mem_append.mpr ⟨?_, Clause.arePlain_toList rfl⟩
    cases s.limit <;> simp [Clause.module, Flag.quotesValue]
  unfold matchParts
  simp only [List.map_append, hinterfaces.map_written, hprotocol.map_written, hports.map_written, hicmp.map_written,
    hstates.map_written, hlimits.map_written]
  rfl

/-- The clauses of a declared rule are accepted exactly if its values are allowed, and they are its values, written
down. -/
theorem matchClauses_eq_ok_iff :
    s.matchClauses = .ok clauses ↔ s.IsAdmissible ∧ s.matchParts.map Clause.written = clauses := by
  rw [map_written_matchParts]
  unfold matchClauses
  simp only [bind_eq_ok, interfaceClauses_eq_ok_iff, portClauses_eq_ok_iff, icmpClauses_eq_ok_iff,
    stateClauses_eq_ok_iff, limitClauses_eq_ok_iff, jumpOptions_eq_ok_iff, protocolClauses_eq, pure, Except.pure,
    Except.ok.injEq]
  constructor
  · rintro ⟨_, ⟨⟨hin, hout⟩, rfl⟩, _, ⟨⟨hfrom, hto⟩, rfl⟩, _, ⟨hicmp, rfl⟩, _, ⟨hstates, rfl⟩, _,
      ⟨⟨hlimit, hburst⟩, rfl⟩, _, ⟨hjump, rfl⟩, rfl⟩
    exact ⟨⟨hin, hout, hfrom, hto, hicmp, hstates, hlimit, hburst, hjump⟩, rfl⟩
  · rintro ⟨h, rfl⟩
    exact ⟨_, ⟨⟨h.inInterface, h.outInterface⟩, rfl⟩, _, ⟨⟨h.sourcePorts, h.destinationPorts⟩, rfl⟩, _,
      ⟨h.icmpType, rfl⟩, _, ⟨h.states, rfl⟩, _, ⟨⟨h.limit, h.burst⟩, rfl⟩, _, ⟨h.jump, rfl⟩, rfl⟩

/-! ### Rules -/

theorem mapError_eq_ok {ε ε' α : Type} {f : ε → ε'} {x : Except ε α} {a : α} :
    x.mapError f = .ok a ↔ x = .ok a := by
  cases x with
  | error e => constructor <;> intro h <;> cases h
  | ok b => constructor <;> intro h <;> cases h <;> rfl

/-- A declared rule has a name that can be its comment, and its table has its chain. -/
structure IsPlaced (s : Spec) : Prop where
  name : IsRuleName s.name
  chain : s.chain ∉ Chain.absentFrom s.table

theorem checkPlacement_eq_ok_iff : s.checkPlacement = .ok () ↔ s.IsPlaced := by
  unfold checkPlacement
  simp only [bind_eq_ok, exists_unit_iff, Check.name_eq_ok_iff, require_eq_ok_iff]
  constructor
  · rintro ⟨hname, hchain⟩
    exact ⟨hname, by simpa [Chain.isIn] using hchain⟩
  · rintro ⟨hname, hchain⟩
    exact ⟨hname, by simpa [Chain.isIn] using hchain⟩

theorem destinationClauses_eq_ok_iff {resolve : Resolver} {mode : AddressMode} :
    s.destinationClauses resolve mode = .ok clauses ↔
      ∃ destination, s.destination.mapM (normalize resolve mode) = .ok destination ∧
        (destination.map (Clause.mk .destination)).toList = clauses := by
  unfold destinationClauses
  cases s.destination with
  | none => simp [pure, Except.pure]
  | some value => cases hvalue : normalize resolve mode value <;> simp [hvalue, Except.map, Functor.map]

/-- A declared rule is compiled exactly if it is placed, its values are allowed and its addresses can be read; then
there is one rule for each of its sources, written with the normal addresses and its values. -/
theorem compile_eq_ok_iff {resolve : Resolver} {mode : AddressMode} {rules : List Rule} :
    s.compile resolve mode = .ok rules ↔
      s.IsPlaced ∧ s.IsAdmissible ∧ ∃ sources destination,
        s.sources.mapM (normalize resolve mode) = .ok sources ∧
        s.destination.mapM (normalize resolve mode) = .ok destination ∧
        (sourceChoices sources).map (s.ruleFor
          ((destination.map (Clause.mk .destination)).toList ++ s.matchParts.map Clause.written)) = rules := by
  unfold compile
  simp only [bind_eq_ok, mapError_eq_ok, exists_unit_iff, checkPlacement_eq_ok_iff, destinationClauses_eq_ok_iff,
    matchClauses_eq_ok_iff, pure, Except.pure, Except.ok.injEq]
  constructor
  · rintro ⟨hplaced, sources, hsources, _, ⟨destination, hdestination, rfl⟩, _, ⟨hadmissible, rfl⟩, rfl⟩
    exact ⟨hplaced, hadmissible, sources, destination, hsources, hdestination, rfl⟩
  · rintro ⟨hplaced, hadmissible, sources, destination, hsources, hdestination, rfl⟩
    exact ⟨hplaced, sources, hsources, _, ⟨destination, hdestination, rfl⟩, _, ⟨hadmissible, rfl⟩, rfl⟩

end Spec

end PacketFilter
