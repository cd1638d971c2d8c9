import PacketFilter.Plan

/-! # Entries of a listing

The rules of a section are numbered in order (`Listing.listedRules_rules`), and `Listing.entries_parse` gives
the entries of a table from the rules that a listing has for it. Without numbers some entries may be dropped,
but no key gets lost (`Listing.mem_keys_firstByKey`); with numbers all keys differ (`numberedKey_inj`), and so
every rule is an entry (`Listing.firstByKey_numbered`). If the entries of each table are numbered lines
(`LiveState.Numbers`), every declared rule stands at its position exactly if the declared texts come first
(`LiveState.Numbers.isPlacedIn_iff`). -/

namespace PacketFilter

theorem toString_nat_inj {m n : Nat} (h : toString m = toString n) : m = n := by
  rw [← Text.Decimal.value_toString m, h, Text.Decimal.value_toString]

theorem numberedKey_inj {m n : Nat} {k l : String} : numberedKey m k = numberedKey n l ↔ m = n ∧ k = l := by
  have hcut : ∀ (n : Nat) (k : String),
      Text.cutList ' ' (numberedKey n k).toList = some ((toString n).toList, k.toList) := by
    intro n k
    rw [Text.cutList_eq_some_iff]
    exact ⟨by simp [numberedKey], Text.Decimal.not_mem_toString rfl n⟩
  constructor
  · intro h
    have hc := hcut m k
    rw [h, hcut n l, Option.some_inj, Prod.mk.injEq, String.toList_inj, String.toList_inj] at hc
    exact ⟨(toString_nat_inj hc.1).symm, hc.2.symm⟩
  · rintro ⟨rfl, rfl⟩
    rfl

namespace Listing

/-! ### Rules of a section -/

theorem listedRules_others {ls : List Line} (h : ∀ l ∈ ls, l = .other) (current : Option Table) (n : Nat)
    (rest : List Line) : listedRules current n (ls ++ rest) = listedRules current n rest := by
  induction ls with
  | nil => rfl
  | cons l ls ih =>
      rw [h l List.mem_cons_self, List.cons_append, listedRules, ih fun m hm => h m (List.mem_cons_of_mem _ hm)]

theorem listedRules_rules (t : Table) (n : Nat) (texts : List String) (rest : List Line) :
    listedRules (some t) n (texts.map .rule ++ rest) =
      (texts.zipIdx (n + 1)).map (fun (text, i) => ⟨t, i, text⟩) ++
        listedRules (some t) (n + texts.length) rest := by
  induction texts generalizing n with
  | nil => rfl
  | cons text texts ih =>
      rw [List.map_cons, List.cons_append, listedRules, ih, List.zipIdx_cons, List.map_cons, List.cons_append,
        List.length_cons, Nat.add_right_comm n 1 texts.length, Nat.add_assoc n texts.length 1]

/-! ### Entries by their keys -/

theorem firstByKey_sublist (seen : List String) (es : List Entry) : (firstByKey seen es).Sublist es := by
  fun_induction firstByKey seen es with
  | case1 => exact .slnil
  | case2 seen e es _ ih => exact ih.cons e
  | case3 seen e es _ ih => exact ih.cons_cons e

theorem mem_keys_firstByKey {seen : List String} {es : List Entry} {k : String} :
    k ∈ (firstByKey seen es).map Entry.key ↔ k ∉ seen ∧ k ∈ es.map Entry.key := by
  fun_induction firstByKey seen es with
  | case1 => simp
  | case2 seen e es hs ih =>
      rw [List.contains_iff_mem] at hs
      rw [ih, List.map_cons, List.mem_cons]
      constructor
      · rintro ⟨hk, hm⟩
        exact ⟨hk, .inr hm⟩
      · rintro ⟨hk, rfl | hm⟩
        · exact absurd hs hk
        · exact ⟨hk, hm⟩
  | case3 seen e es hs ih =>
      rw [List.contains_iff_mem] at hs
      rw [List.map_cons, List.mem_cons, List.map_cons, List.mem_cons, ih, List.mem_cons, not_or]
      constructor
      · rintro (rfl | ⟨⟨_, hk⟩, hm⟩)
        · exact ⟨hs, .inl rfl⟩
        · exact ⟨hk, .inr hm⟩
      · rintro ⟨hk, rfl | hm⟩
        · exact .inl rfl
        · by_cases he : k = e.key
          · exact .inl he
          · exact .inr ⟨⟨he, hk⟩, hm⟩

theorem nodup_keys_firstByKey (seen : List String) (es : List Entry) :
    ((firstByKey seen es).map Entry.key).Nodup := by
  fun_induction firstByKey seen es with
  | case1 => exact .nil
  | case2 seen e es _ ih => exact ih
  | case3 seen e es _ ih =>
      rw [List.map_cons, List.nodup_cons]
      exact ⟨fun hmem => (mem_keys_firstByKey.mp hmem).1 List.mem_cons_self, ih⟩

theorem mem_firstByKey_iff {seen : List String} {es : List Entry} {e : Entry} :
    e ∈ firstByKey seen es ↔ e.key ∉ seen ∧ es.find? (·.key == e.key) = some e := by
  fun_induction firstByKey seen es with
  | case1 => simp
  | case2 seen f es hs ih =>
      rw [List.contains_iff_mem] at hs
      rw [ih]
      refine and_congr_right fun he => ?_
      rw [List.find?_cons_of_neg]
      rw [beq_iff_eq]
      exact fun hf => he (hf ▸ hs)
  | case3 seen f es hs ih =>
      rw [List.contains_iff_mem] at hs
      rw [List.mem_cons, ih, List.mem_cons, not_or]
      by_cases hf : f.key = e.key
      · rw [List.find?_cons_of_pos (by rwa [beq_iff_eq]), Option.some_inj, eq_comm (a := f)]
        constructor
        · rintro (rfl | ⟨⟨hne, -⟩, -⟩)
          · exact ⟨hs, rfl⟩
          · exact absurd hf.symm hne
        · exact fun h => .inl h.2
      · rw [List.find?_cons_of_neg (by rwa [beq_iff_eq])]
        constructor
        · rintro (rfl | ⟨⟨-, hk⟩, hfind⟩)
          · exact absurd rfl hf
          · exact ⟨hk, hfind⟩
        · rintro ⟨hk, hfind⟩
          exact .inr ⟨⟨fun he => hf he.symm, hk⟩, hfind⟩

theorem firstByKey_eq_self {seen : List String} {es : List Entry} (hn : (es.map Entry.key).Nodup)
    (hs : ∀ e ∈ es, e.key ∉ seen) : firstByKey seen es = es := by
  induction es generalizing seen with
  | nil => rfl
  | cons e es ih =>
      rw [List.map_cons, List.nodup_cons] at hn
      rw [firstByKey, if_neg (by simpa using hs e List.mem_cons_self), ih hn.2]
      intro f hf hmem
      rcases List.mem_cons.mp hmem with he | hmem
      · exact hn.1 (he ▸ List.mem_map_of_mem hf)
      · exact hs f (List.mem_cons_of_mem _ hf) hmem

theorem find?_key_eq_some_iff {es : List Entry} (hn : (es.map Entry.key).Nodup) {key : String} {e : Entry} :
    es.find? (·.key == key) = some e ↔ e ∈ es ∧ e.key = key := by
  constructor
  · intro h
    exact ⟨List.mem_of_find?_eq_some h, beq_iff_eq.mp (List.find?_some (p := fun f : Entry => f.key == key) h)⟩
  · rintro ⟨he, rfl⟩
    have hself : firstByKey [] es = es := firstByKey_eq_self hn (by simp)
    rw [← hself, mem_firstByKey_iff] at he
    exact he.2

theorem entries_parse (numbered : Bool) (mode : AddressMode) (raw : String) (t : Table) :
    (parse numbered mode raw).entries t =
      firstByKey [] (((rules raw).filter (·.table == t)).map (entry numbered mode)) := by
  rw [LiveState.entries, parse]
  dsimp only
  split
  · rfl
  · rename_i h
    have hnone : (rules raw).filter (·.table == t) = [] := by simp_all
    rw [hnone]
    rfl

theorem firstByKey_numbered (mode : AddressMode) (t : Table) (n : Nat) (texts : List String) :
    firstByKey [] ((texts.zipIdx n).map fun (text, i) => entry true mode ⟨t, i, text⟩) =
      (texts.zipIdx n).map fun (text, i) => entry true mode ⟨t, i, text⟩ := by
  refine firstByKey_eq_self ?_ (by simp)
  have hnum : ((texts.zipIdx n).map Prod.snd).Nodup := by
    rw [List.zipIdx_map_snd]
    exact List.nodup_range'
  rw [List.nodup_iff_pairwise_ne, List.pairwise_map] at hnum
  rw [List.map_map, List.nodup_iff_pairwise_ne, List.pairwise_map]
  exact hnum.imp fun hne he => hne (numberedKey_inj.mp he).1

end Listing

/-! ### Entries by their positions -/

namespace LiveState

variable {live : LiveState}

theorem contains_iff {t : Table} {key : String} :
    live.contains t key = true ↔ key ∈ (live.entries t).map Entry.key := by
  rw [contains, List.any_eq_true, List.mem_map]
  simp only [beq_iff_eq]

/-- The entries of each table are the given lines, numbered from 1. -/
def Numbers (live : LiveState) (mode : AddressMode) (lines : Table → List String) : Prop :=
  ∀ t, live.entries t = ((lines t).zipIdx 1).map fun (line, i) => Listing.entry true mode ⟨t, i, line⟩

variable {mode : AddressMode} {lines : Table → List String}

/-- A key stands at its position exactly if it is found with its number. -/
theorem Numbers.contains_iff (h : live.Numbers mode lines) {t : Table} {n : Nat} {k : String} :
    live.contains t (numberedKey n k) = true ↔ 1 ≤ n ∧ ((lines t).map canonical)[n - 1]? = some k := by
  rw [LiveState.contains, h, List.any_map, List.any_eq_true, List.getElem?_map, Option.map_eq_some_iff]
  constructor
  · rintro ⟨⟨line, i⟩, hmem, hkey⟩
    obtain ⟨rfl, rfl⟩ := numberedKey_inj.mp (beq_iff_eq.mp hkey)
    obtain ⟨hle, hget⟩ := List.mk_mem_zipIdx_iff_le_and_getElem?_sub.mp hmem
    exact ⟨hle, line, hget, rfl⟩
  · rintro ⟨hle, line, hget, rfl⟩
    exact ⟨(line, n), List.mk_mem_zipIdx_iff_le_and_getElem?_sub.mpr ⟨hle, hget⟩, beq_self_eq_true _⟩

end LiveState

theorem RuleSet.mem_placed {declared : RuleSet} {t : Table} {p : PlacedRule} :
    p ∈ declared.placed t ↔ 1 ≤ p.position ∧ (declared.rules t)[p.position - 1]? = some p.rule := by
  rw [RuleSet.placed, List.mem_map]
  constructor
  · rintro ⟨⟨r, i⟩, hmem, rfl⟩
    exact List.mk_mem_zipIdx_iff_le_and_getElem?_sub.mp hmem
  · intro h
    exact ⟨(p.rule, p.position), List.mk_mem_zipIdx_iff_le_and_getElem?_sub.mpr h, rfl⟩

/-- Every declared rule is found at its position exactly if the declared texts come first among the keys. -/
theorem LiveState.Numbers.isPlacedIn_iff {live : LiveState} {mode : AddressMode} {lines : Table → List String}
    (h : live.Numbers mode lines) {declared : RuleSet} :
    declared.isPlacedIn live = true ↔ ∀ t, declared.texts t <+: (lines t).map canonical := by
  rw [RuleSet.isPlacedIn, List.all_eq_true]
  refine ⟨fun hall t => ?_, fun hfirst t _ => List.all_eq_true.mpr fun p hp => ?_⟩
  · rw [List.prefix_iff_getElem?]
    intro i hi
    have hlt : i < (declared.rules t).length := by simpa [RuleSet.texts] using hi
    have hplaced : ⟨i + 1, (declared.rules t)[i]⟩ ∈ declared.placed t :=
      RuleSet.mem_placed.mpr ⟨Nat.le_add_left 1 i, List.getElem?_eq_getElem hlt⟩
    have hfound := h.contains_iff.mp (List.all_eq_true.mp (hall t (Table.mem_all t)) _ hplaced)
    simpa [RuleSet.texts] using hfound.2
  · obtain ⟨hle, hr⟩ := RuleSet.mem_placed.mp hp
    have htext : (declared.texts t)[p.position - 1]? = some p.rule.text := by
      rw [RuleSet.texts, List.getElem?_map, hr, Option.map_some]
    obtain ⟨hlt, hget⟩ := List.getElem?_eq_some_iff.mp htext
    exact h.contains_iff.mpr ⟨hle, hget ▸ List.prefix_iff_getElem?.mp (hfirst t) _ hlt⟩

end PacketFilter
