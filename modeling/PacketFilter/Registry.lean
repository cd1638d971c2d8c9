import PacketFilter.Rule

/-! # Registries

A `Registry` collects rules table by table. Rules are put in one after the other, each behind those of its table; a
table gets its place among the others with its first rule. When all declarations are in, `Registry.arrange` brings the
rules of each table into their final order: the declared ones are sorted, so that the order of their declaration does
not matter, and the rules of files keep their order in front of them and behind them. -/

namespace PacketFilter

/-- Whether a rule may stand before another one: by priority, then by name, then by source. -/
def Rule.precedes (a b : Rule) : Bool :=
  a.priority < b.priority || (a.priority == b.priority &&
    (a.name < b.name || (a.name == b.name && ! b.source < a.source)))

/-- The rules of one table among others. -/
def rulesOf (t : Table) (rules : List Rule) : List Rule :=
  rules.filter (·.table == t)

abbrev Bucket := Table × List Rule

/-- Rules that were collected, table by table, in the order of the tables. -/
structure Registry where
  buckets : List Bucket
  ordered : buckets.Pairwise fun a b => a.1.rank < b.1.rank

namespace Registry

/-- No rules. -/
def empty : Registry := ⟨[], .nil⟩

/-- Changes the rules of a table. A table that is not there yet is put in its place, with what is made of no rules. -/
def modifyBuckets (t : Table) (change : List Rule → List Rule) : List Bucket → List Bucket
  | [] => [(t, change [])]
  | (u, rules) :: rest =>
    if t = u then (u, change rules) :: rest
    else if t.rank < u.rank then (t, change []) :: (u, rules) :: rest
    else (u, rules) :: modifyBuckets t change rest

section modifyBuckets
variable {t u : Table} {change : List Rule → List Rule} {buckets : List Bucket} {b : Bucket}

theorem mem_modifyBuckets (h : b ∈ modifyBuckets t change buckets) : b.1 = t ∨ b ∈ buckets := by
  fun_induction modifyBuckets t change buckets with
  | case1 => exact .inl (congrArg Prod.fst (List.mem_singleton.mp h))
  | case2 rules rest =>
    rcases List.mem_cons.mp h with rfl | h
    · exact .inl rfl
    · exact .inr (List.mem_cons_of_mem _ h)
  | case3 u rules rest _ _ =>
    rcases List.mem_cons.mp h with rfl | h
    · exact .inl rfl
    · exact .inr h
  | case4 u rules rest _ _ ih =>
    rcases List.mem_cons.mp h with rfl | h
    · exact .inr List.mem_cons_self
    · exact (ih h).imp_right (List.mem_cons_of_mem _)

theorem ordered_modifyBuckets (h : buckets.Pairwise fun a b => a.1.rank < b.1.rank) :
    (modifyBuckets t change buckets).Pairwise fun a b => a.1.rank < b.1.rank := by
  fun_induction modifyBuckets t change buckets with
  | case1 => exact List.pairwise_singleton _ _
  | case2 rules rest => exact List.pairwise_cons.mpr (List.pairwise_cons.mp h)
  | case3 u rules rest _ hlt =>
    refine List.pairwise_cons.mpr ⟨fun b hb => ?_, h⟩
    rcases List.mem_cons.mp hb with rfl | hb
    · exact hlt
    · exact Nat.lt_trans hlt ((List.pairwise_cons.mp h).1 b hb)
  | case4 u rules rest hne hle ih =>
    obtain ⟨hfirst, hrest⟩ := List.pairwise_cons.mp h
    refine List.pairwise_cons.mpr ⟨fun b hb => ?_, ih hrest⟩
    rcases mem_modifyBuckets hb with rfl | hb
    · exact Nat.lt_of_le_of_ne (Nat.le_of_not_lt hle) fun h => hne (Table.eq_of_rank h.symm)
    · exact hfirst b hb

theorem lookup_cons (b : Bucket) (buckets : List Bucket) (t : Table) :
    (b :: buckets).lookup t = if t = b.1 then some b.2 else buckets.lookup t := by
  rw [List.lookup_cons]
  by_cases h : t = b.1
  · rw [if_pos h, beq_iff_eq.mpr h]
  · rw [if_neg h, beq_eq_false_iff_ne.mpr h]

theorem lookup_eq_none (h : ∀ b ∈ buckets, t.rank < b.1.rank) : buckets.lookup t = none := by
  refine List.lookup_eq_none_iff.mpr fun b hb => ?_
  have hne : t ≠ b.1 := fun heq => Nat.lt_irrefl _ (heq ▸ h b hb)
  simpa using hne

theorem lookup_modifyBuckets (h : buckets.Pairwise fun a b => a.1.rank < b.1.rank) :
    (modifyBuckets t change buckets).lookup u =
      if u = t then some (change ((buckets.lookup t).getD [])) else buckets.lookup u := by
  fun_induction modifyBuckets t change buckets with
  | case1 => rw [lookup_cons, List.lookup_nil, List.lookup_nil, Option.getD_none]
  | case2 rules rest =>
    simp only [lookup_cons, if_true, Option.getD_some]
    split <;> rfl
  | case3 v rules rest hne hlt =>
    have hnone : ((v, rules) :: rest).lookup t = none := by
      refine lookup_eq_none fun b hb => ?_
      rcases List.mem_cons.mp hb with rfl | hb
      · exact hlt
      · exact Nat.lt_trans hlt ((List.pairwise_cons.mp h).1 b hb)
    rw [hnone, lookup_cons, Option.getD_none]
  | case4 v rules rest hne _ ih =>
    simp only [lookup_cons, ih (List.pairwise_cons.mp h).2, if_neg hne]
    by_cases hu : u = t
    · simp [hu, hne]
    · simp [hu]

end modifyBuckets

/-- A registry with other rules for one table. -/
def modify (t : Table) (change : List Rule → List Rule) (reg : Registry) : Registry where
  buckets := modifyBuckets t change reg.buckets
  ordered := ordered_modifyBuckets reg.ordered

def rules (reg : Registry) (t : Table) : List Rule :=
  (reg.buckets.lookup t).getD []

def size (reg : Registry) : Nat :=
  (reg.buckets.flatMap Prod.snd).length

def isEmpty (reg : Registry) : Bool :=
  reg.size == 0

/-- Puts in a rule, behind those of its table. -/
def add (reg : Registry) (r : Rule) : Registry :=
  reg.modify r.table (· ++ [r])

/-- Puts in rules, one after the other. -/
def insert (reg : Registry) (rules : List Rule) : Registry :=
  rules.foldl add reg

/-- Sorts the rules of each table. -/
def sort (reg : Registry) : Registry where
  buckets := reg.buckets.map fun b => (b.1, b.2.mergeSort Rule.precedes)
  ordered := List.pairwise_map.mpr reg.ordered

/-- Puts the rules of another registry in front of those of their tables. -/
def putInFront (reg front : Registry) : Registry :=
  front.buckets.foldl (fun reg b => reg.modify b.1 (b.2 ++ ·)) reg

/-- Drops the tables without rules. -/
def dropEmpty (reg : Registry) : Registry where
  buckets := reg.buckets.filter fun b => ! b.2.isEmpty
  ordered := reg.ordered.filter _

/-- The rules that were collected, in sorted order, between the rules that come before and after them. -/
def arrange (reg : Registry) (pre post : List Rule) : Registry :=
  ((reg.sort.putInFront (empty.insert pre)).insert post).dropEmpty

/-! ### The rules of a table -/

variable (reg : Registry)

theorem rules_empty (t : Table) : empty.rules t = [] := rfl

theorem rules_modify (t u : Table) (change : List Rule → List Rule) :
    (reg.modify t change).rules u = if u = t then change (reg.rules t) else reg.rules u := by
  rw [rules, modify, lookup_modifyBuckets reg.ordered]
  split <;> rfl

/-- Rules are put behind those of their tables, in their order. -/
theorem rules_insert (rs : List Rule) (t : Table) : (reg.insert rs).rules t = reg.rules t ++ rulesOf t rs := by
  induction rs generalizing reg with
  | nil => exact (List.append_nil _).symm
  | cons r rs ih =>
    refine (ih (reg.add r)).trans ?_
    rw [add, rules_modify, rulesOf, rulesOf, List.filter_cons]
    by_cases ht : t = r.table <;> simp [ht, Ne.symm]

theorem rules_sort (t : Table) : reg.sort.rules t = (reg.rules t).mergeSort Rule.precedes := by
  have hlookup : ∀ bs : List Bucket,
      (bs.map fun b => (b.1, b.2.mergeSort Rule.precedes)).lookup t =
        (bs.lookup t).map fun rules => rules.mergeSort Rule.precedes := by
    intro bs
    induction bs with
    | nil => rfl
    | cons b bs ih =>
      rw [List.map_cons, lookup_cons, lookup_cons, ih]
      split <;> rfl
  rw [rules, sort, hlookup, rules]
  cases reg.buckets.lookup t <;> simp

/-- Every table comes once in the other registry, so that its rules are put in front once. -/
theorem rules_putInFront (front : Registry) (t : Table) :
    (reg.putInFront front).rules t = front.rules t ++ reg.rules t := by
  obtain ⟨buckets, ordered⟩ := front
  rw [putInFront, rules.eq_1 ⟨buckets, ordered⟩]
  induction buckets generalizing reg with
  | nil => rfl
  | cons b buckets ih =>
    obtain ⟨hfirst, hbuckets⟩ := List.pairwise_cons.mp ordered
    refine (ih (reg.modify b.1 (b.2 ++ ·)) hbuckets).trans ?_
    rw [rules_modify, lookup_cons]
    by_cases ht : t = b.1
    · simp [ht, lookup_eq_none hfirst]
    · simp [ht]

theorem rules_dropEmpty (t : Table) : reg.dropEmpty.rules t = reg.rules t := by
  have hlookup : ∀ bs : List Bucket, (bs.Pairwise fun a b => a.1.rank < b.1.rank) →
      ((bs.filter fun b => ! b.2.isEmpty).lookup t).getD [] = (bs.lookup t).getD [] := by
    intro bs h
    induction bs with
    | nil => rfl
    | cons b bs ih =>
      obtain ⟨hfirst, hrest⟩ := List.pairwise_cons.mp h
      rw [List.filter_cons, lookup_cons]
      cases hb : b.2 with
      | nil =>
        rw [if_neg (by simp), ih hrest]
        split
        · rename_i ht
          rw [ht, lookup_eq_none hfirst]
          rfl
        · rfl
      | cons r rs =>
        rw [if_pos (by simp), lookup_cons, hb]
        split
        · rfl
        · exact ih hrest
  exact hlookup _ reg.ordered

/-- The sorted rules of each table stand between those of the files. -/
theorem rules_arrange (pre post : List Rule) (t : Table) :
    (reg.arrange pre post).rules t =
      rulesOf t pre ++ (reg.rules t).mergeSort Rule.precedes ++ rulesOf t post := by
  rw [arrange, rules_dropEmpty, rules_insert, rules_putInFront, rules_sort, rules_insert, rules_empty, List.nil_append]

end Registry

end PacketFilter
