import PacketFilter.Proofs.ListedText

/-! # Lines of a text

A text is cut into pieces at marks (`Text.splitAt_append_cons`), and so into lines. Lines that are each ended by a
newline are the lines of the text they make (`Text.lines_join`), and different lines make different texts
(`Text.join_lines_inj`). Conversely no line of a text holds a newline, and a line without the blanks around it does not
end with one (`Text.endsInk_trim`); a line that neither begins nor ends with a blank stays as it is
(`Text.trim_eq_self`). -/

namespace PacketFilter.Text

/-! ### Pieces of a text -/

theorem splitAt_append_cons {p : Char → Bool} (cs : List Char) {d : Char} (hd : p d = true) (rest : List Char) :
    splitAt p (cs ++ d :: rest) = splitAt p cs ++ splitAt p rest := by
  induction cs with
  | nil => simp [splitAt, hd]
  | cons c cs ih =>
      rw [List.cons_append, splitAt, splitAt, ih]
      cases hs : splitAt p cs with
      | nil => exact absurd hs (splitAt_ne_nil p cs)
      | cons piece pieces => split <;> rfl

theorem splitAt_of_forall {p : Char → Bool} {cs : List Char} (h : ∀ c ∈ cs, p c = false) : splitAt p cs = [cs] := by
  induction cs with
  | nil => rfl
  | cons c cs ih =>
      rw [splitAt, if_neg (by simp [h c List.mem_cons_self]), ih fun d hd => h d (List.mem_cons_of_mem _ hd)]

theorem splitAt_append {p : Char → Bool} {cs : List Char} (h : ∀ c ∈ cs, p c = false) {d : Char}
    (hd : p d = true) (rest : List Char) : splitAt p (cs ++ d :: rest) = cs :: splitAt p rest := by
  rw [splitAt_append_cons cs hd, splitAt_of_forall h, List.singleton_append]

/-! ### Joining lines -/

theorem chomp_eq_self {cs : List Char} (h : cs.getLast? ≠ some '\r') : chomp cs = cs := by
  rw [chomp, if_neg h]

theorem linesOfPieces_cons (piece : List Char) {pieces : List (List Char)} (h : pieces ≠ []) :
    linesOfPieces (piece :: pieces) = chomp piece :: linesOfPieces pieces := by
  cases pieces with
  | nil => exact absurd rfl h
  | cons q qs => rw [linesOfPieces.eq_3 _ _ h]

/-- The pieces between newlines are the lines, and nothing behind the last newline. -/
theorem splitAt_flatMap_newline {ls : List (List Char)} (h : ∀ l ∈ ls, '\n' ∉ l) :
    splitAt (· == '\n') (ls.flatMap (· ++ ['\n'])) = ls ++ [[]] := by
  induction ls with
  | nil => rfl
  | cons l ls ih =>
      have hl : ∀ c ∈ l, (c == '\n') = false := by
        intro c hc
        rw [beq_eq_false_iff_ne]
        rintro rfl
        exact h l List.mem_cons_self hc
      rw [List.flatMap_cons, List.append_assoc, List.singleton_append, splitAt_append hl rfl,
        ih fun m hm => h m (List.mem_cons_of_mem _ hm), List.cons_append]

theorem linesOfPieces_append_nil {ls : List (List Char)} (h : ∀ l ∈ ls, l.getLast? ≠ some '\r') :
    linesOfPieces (ls ++ [[]]) = ls := by
  induction ls with
  | nil => rfl
  | cons l ls ih =>
      rw [List.cons_append, linesOfPieces_cons _ (List.append_ne_nil_of_right_ne_nil _ (List.cons_ne_nil _ _)),
        chomp_eq_self (h l List.mem_cons_self), ih fun m hm => h m (List.mem_cons_of_mem _ hm)]

theorem toList_join_lines (ls : List String) :
    (String.join (ls.map (· ++ "\n"))).toList = (ls.map String.toList).flatMap (· ++ ['\n']) := by
  simp [String.toList_join, List.flatMap_map]

theorem lines_join {ls : List String}
    (h : ∀ l ∈ ls, '\n' ∉ l.toList ∧ l.toList.getLast? ≠ some '\r') :
    lines (String.join (ls.map (· ++ "\n"))) = ls := by
  have hnewline : ∀ l ∈ ls.map String.toList, '\n' ∉ l := List.forall_mem_map.mpr fun l hl => (h l hl).1
  have hlast : ∀ l ∈ ls.map String.toList, l.getLast? ≠ some '\r' := List.forall_mem_map.mpr fun l hl => (h l hl).2
  rw [lines, toList_join_lines, splitAt_flatMap_newline hnewline, linesOfPieces_append_nil hlast, List.map_map]
  simp [Function.comp_def]

theorem join_lines_inj {ls ls' : List String} (h : ∀ l ∈ ls, '\n' ∉ l.toList) (h' : ∀ l ∈ ls', '\n' ∉ l.toList) :
    String.join (ls.map (· ++ "\n")) = String.join (ls'.map (· ++ "\n")) ↔ ls = ls' := by
  refine ⟨fun heq => ?_, fun heq => by rw [heq]⟩
  have hpieces := congrArg (splitAt (· == '\n')) (congrArg String.toList heq)
  rw [toList_join_lines, toList_join_lines, splitAt_flatMap_newline (List.forall_mem_map.mpr h),
    splitAt_flatMap_newline (List.forall_mem_map.mpr h')] at hpieces
  exact (List.map_inj_right fun _ _ => String.toList_inj.mp).mp (List.append_cancel_right hpieces)

/-! ### Lines of a text -/

theorem not_of_mem_splitAt {p : Char → Bool} {cs piece : List Char} (h : piece ∈ splitAt p cs) :
    ∀ c ∈ piece, p c = false := by
  induction cs generalizing piece with
  | nil =>
      rw [splitAt, List.mem_singleton] at h
      simp [h]
  | cons d cs ih =>
      rw [splitAt] at h
      split at h
      · rcases List.mem_cons.mp h with rfl | h
        · simp
        · exact ih h
      · rename_i hd
        cases hs : splitAt p cs with
        | nil => exact absurd hs (splitAt_ne_nil p cs)
        | cons q qs =>
            rw [hs] at h
            have hq := ih (hs ▸ List.mem_cons_self : q ∈ splitAt p cs)
            rcases List.mem_cons.mp h with rfl | h
            · intro c hc
              rcases List.mem_cons.mp hc with rfl | hc
              · simpa using hd
              · exact hq c hc
            · exact ih (hs ▸ List.mem_cons_of_mem _ h)

theorem exists_piece_of_mem_linesOfPieces {pieces : List (List Char)} {l : List Char}
    (h : l ∈ linesOfPieces pieces) : ∃ piece ∈ pieces, l ⊆ piece := by
  fun_induction linesOfPieces pieces with
  | case1 => simp at h
  | case2 last _ => simp at h
  | case3 last _ =>
      rw [List.mem_singleton] at h
      exact ⟨last, List.mem_cons_self, h ▸ List.Subset.refl _⟩
  | case4 piece pieces _ ih =>
      rcases List.mem_cons.mp h with rfl | h
      · refine ⟨piece, List.mem_cons_self, ?_⟩
        rw [chomp]
        split
        · exact List.dropLast_subset _
        · exact List.Subset.refl _
      · obtain ⟨q, hq, hl⟩ := ih h
        exact ⟨q, List.mem_cons_of_mem _ hq, hl⟩

theorem newline_not_mem_of_mem_lines {s l : String} (h : l ∈ lines s) : '\n' ∉ l.toList := by
  obtain ⟨cs, hcs, rfl⟩ := List.mem_map.mp h
  obtain ⟨piece, hp, hsub⟩ := exists_piece_of_mem_linesOfPieces hcs
  intro hn
  rw [String.toList_ofList] at hn
  have := not_of_mem_splitAt hp _ (hsub hn)
  simp at this

/-! ### Lines without the blanks around them -/

theorem trimWhile_subset {α : Type} (p : α → Bool) (cs : List α) : trimWhile p cs ⊆ cs := by
  intro c hc
  rw [trimWhile, dropEndWhile, List.mem_reverse] at hc
  exact (List.dropWhile_sublist _).subset (List.mem_reverse.mp ((List.dropWhile_sublist _).subset hc))

theorem newline_not_mem_trim {s l : String} (h : l ∈ lines s) : '\n' ∉ (trim l).toList := by
  rw [trim, String.toList_ofList]
  exact fun hn => newline_not_mem_of_mem_lines h (trimWhile_subset _ _ hn)

theorem endsInk_trim (s : String) : EndsInk (trim s).toList := by
  intro c hc
  rw [trim, String.toList_ofList, trimWhile, dropEndWhile, List.getLast?_reverse] at hc
  have h := List.head?_dropWhile_not isBlank (s.toList.dropWhile isBlank).reverse
  rw [hc] at h
  simpa using h

theorem dropWhile_eq_self {α : Type} {p : α → Bool} {cs : List α} (h : ∀ c, cs.head? = some c → p c = false) :
    cs.dropWhile p = cs := by
  cases cs with
  | nil => rfl
  | cons c cs => rw [List.dropWhile_cons_of_neg (by simp [h c rfl])]

theorem trim_eq_self {s : String} (h : ∀ c, s.toList.head? = some c → isBlank c = false)
    (he : EndsInk s.toList) : trim s = s := by
  have hr : ∀ c, s.toList.reverse.head? = some c → isBlank c = false := by
    intro c hc
    rw [List.head?_reverse] at hc
    exact he c hc
  rw [trim, trimWhile, dropEndWhile, dropWhile_eq_self h, dropWhile_eq_self hr, List.reverse_reverse,
    String.ofList_toList]

end PacketFilter.Text
