import GameLobby.Config.Basic

/-!
# Filling in a template is one pass

A template is read from left to right. A placeholder at the front is replaced by the name and passed
over, and any other byte is kept (`Template.Pass`); what was put in is not read again. No two
placeholders overlap, so the pass comes upon all of them (`Template.occurrences`). What is filled in
is what this pass writes (`Template.pass_iff`). Main statement: `Config.motdText_single_pass`.
-/

namespace GameLobby

namespace Template

/-- A pass over a template from left to right, what it writes, and how many placeholders it
replaces. -/
inductive Pass (name : Bytes) : (template out : Bytes) → (replaced : Nat) → Prop where
  | done : Pass name [] [] 0
  | replace {rest out : Bytes} {k : Nat} (h : Pass name rest out k) :
    Pass name (placeholder ++ rest) (name ++ out) (k + 1)
  | keep {b : UInt8} {rest out : Bytes} {k : Nat} (hnot : ¬ placeholder <+: b :: rest)
    (h : Pass name rest out k) : Pass name (b :: rest) (b :: out) k

/-- In how many places of a template a placeholder begins. -/
def occurrences (template : Bytes) : Nat :=
  (List.range template.length).countP fun i => placeholder.isPrefixOf (template.drop i)

theorem isPrefixOf_append (rest : Bytes) : placeholder.isPrefixOf (placeholder ++ rest) :=
  List.isPrefixOf_iff_prefix.mpr (List.prefix_append _ _)

/-- A template is read by taking a placeholder off its front, or else one byte. -/
theorem scan_induction {motive : Bytes → Prop} (nil : motive [])
    (found : ∀ rest, motive rest → motive (placeholder ++ rest))
    (kept : ∀ b rest, ¬ placeholder <+: b :: rest → motive rest → motive (b :: rest))
    (template : Bytes) : motive template := by
  induction hlength : template.length using Nat.strongRecOn generalizing template with
  | ind n ih =>
    subst hlength
    cases template with
    | nil => exact nil
    | cons b rest =>
      by_cases hfound : placeholder <+: b :: rest
      · obtain ⟨rest, heq⟩ := hfound
        have hshort : rest.length < (placeholder ++ rest).length := by
          rw [List.length_append]
          exact Nat.lt_add_of_pos_left (by decide)
        rw [← heq] at ih ⊢
        exact found rest (ih _ hshort rest rfl)
      · exact kept b rest hfound (ih _ (Nat.lt_succ_self _) rest rfl)

/-! ## Parts -/

theorem parts_placeholder_append (rest : Bytes) :
    parts (placeholder ++ rest) = [] :: parts rest := by
  show partsFrom 0 (0x7B :: ([0x6E, 0x61, 0x6D, 0x65, 0x7D] ++ rest)) = _
  rw [partsFrom]
  exact (if_pos (isPrefixOf_append rest)).trans rfl

theorem parts_cons_of_kept {b : UInt8} {rest : Bytes} (h : ¬ placeholder <+: b :: rest) :
    parts (b :: rest) = extend b (parts rest) :=
  if_neg (mt List.isPrefixOf_iff_prefix.mp h)

theorem parts_ne_nil (template : Bytes) : parts template ≠ [] := by
  induction template using scan_induction with
  | nil => exact List.cons_ne_nil _ _
  | found rest _ =>
    rw [parts_placeholder_append]
    exact List.cons_ne_nil _ _
  | kept b rest hnot _ =>
    rw [parts_cons_of_kept hnot]
    cases parts rest <;> exact List.cons_ne_nil _ _

theorem intercalate_nil_cons (name : Bytes) {ps : List Bytes} (h : ps ≠ []) :
    name.intercalate ([] :: ps) = name ++ name.intercalate ps := by
  cases ps with
  | nil => exact absurd rfl h
  | cons p ps => rw [List.intercalate_cons_cons, List.nil_append]

theorem intercalate_extend (name : Bytes) (b : UInt8) {ps : List Bytes} (h : ps ≠ []) :
    name.intercalate (extend b ps) = b :: name.intercalate ps := by
  cases ps with
  | nil => exact absurd rfl h
  | cons p ps =>
    cases ps with
    | nil => rw [extend, List.intercalate_singleton, List.intercalate_singleton]
    | cons q ps => rw [extend, List.intercalate_cons_cons, List.intercalate_cons_cons,
        List.cons_append, List.cons_append]

/-! ## What is filled in -/

theorem fill_nil (name : Bytes) : fill [] name = [] :=
  List.intercalate_singleton

theorem fill_placeholder_append (rest name : Bytes) :
    fill (placeholder ++ rest) name = name ++ fill rest name := by
  rw [fill, parts_placeholder_append, intercalate_nil_cons name (parts_ne_nil rest)]
  rfl

theorem fill_cons_of_kept {b : UInt8} {rest : Bytes} (name : Bytes)
    (h : ¬ placeholder <+: b :: rest) : fill (b :: rest) name = b :: fill rest name := by
  rw [fill, parts_cons_of_kept h, intercalate_extend name b (parts_ne_nil rest)]
  rfl

/-- A template without placeholders stays as it is. -/
theorem fill_eq_self_of_not_infix {template : Bytes} (name : Bytes)
    (h : ¬ placeholder <:+: template) : fill template name = template := by
  induction template with
  | nil => exact fill_nil name
  | cons b rest ih =>
    rw [List.infix_cons_iff, not_or] at h
    rw [fill_cons_of_kept name h.1, ih h.2]

/-- Placeholders in the place of placeholders change nothing. -/
theorem fill_placeholder (template : Bytes) : fill template placeholder = template := by
  induction template using scan_induction with
  | nil => exact fill_nil placeholder
  | found rest ih => rw [fill_placeholder_append, ih]
  | kept b rest hnot ih => rw [fill_cons_of_kept placeholder hnot, ih]

/-! ## How many placeholders there are -/

theorem occurrences_cons (b : UInt8) (rest : Bytes) :
    occurrences (b :: rest) =
      occurrences rest + if placeholder.isPrefixOf (b :: rest) then 1 else 0 := by
  unfold occurrences
  rw [List.length_cons, List.range_succ_eq_map, List.countP_cons, List.countP_map]
  rfl

theorem occurrences_cons_of_kept {b : UInt8} {rest : Bytes}
    (h : ¬ placeholder <+: b :: rest) : occurrences (b :: rest) = occurrences rest := by
  rw [occurrences_cons, if_neg (mt List.isPrefixOf_iff_prefix.mp h), Nat.add_zero]

/-- A placeholder begins with a brace. -/
theorem not_prefix_of_ne {b : UInt8} (rest : Bytes) (h : b ≠ 0x7B) :
    ¬ placeholder <+: b :: rest :=
  fun hprefix => h (List.cons_prefix_cons.mp hprefix).1.symm

/-- No placeholder begins inside another one. -/
theorem occurrences_placeholder_append (rest : Bytes) :
    occurrences (placeholder ++ rest) = occurrences rest + 1 := by
  have hinside : occurrences (0x6E :: 0x61 :: 0x6D :: 0x65 :: 0x7D :: rest) = occurrences rest := by
    rw [occurrences_cons_of_kept (not_prefix_of_ne _ (by decide)),
      occurrences_cons_of_kept (not_prefix_of_ne _ (by decide)),
      occurrences_cons_of_kept (not_prefix_of_ne _ (by decide)),
      occurrences_cons_of_kept (not_prefix_of_ne _ (by decide)),
      occurrences_cons_of_kept (not_prefix_of_ne _ (by decide))]
  rw [← hinside]
  exact (occurrences_cons _ _).trans (congrArg _ (if_pos (isPrefixOf_append rest)))

/-! ## The pass -/

variable {name : Bytes}

theorem pass_fill (name template : Bytes) :
    Pass name template (fill template name) (occurrences template) := by
  induction template using scan_induction with
  | nil => exact fill_nil name ▸ .done
  | found rest ih =>
    rw [fill_placeholder_append, occurrences_placeholder_append]
    exact .replace ih
  | kept b rest hnot ih =>
    rw [fill_cons_of_kept name hnot, occurrences_cons_of_kept hnot]
    exact .keep hnot ih

theorem pass_iff {template out : Bytes} {k : Nat} :
    Pass name template out k ↔ out = fill template name ∧ k = occurrences template := by
  constructor
  · intro h
    induction h with
    | done => exact ⟨(fill_nil name).symm, rfl⟩
    | replace _ ih =>
      obtain ⟨rfl, rfl⟩ := ih
      exact ⟨(fill_placeholder_append _ name).symm, (occurrences_placeholder_append _).symm⟩
    | keep hnot _ ih =>
      obtain ⟨rfl, rfl⟩ := ih
      exact ⟨(fill_cons_of_kept name hnot).symm, (occurrences_cons_of_kept hnot).symm⟩
  · rintro ⟨rfl, rfl⟩
    exact pass_fill name template

/-- Each placeholder makes room for a name. -/
theorem Pass.length_eq {template out : Bytes} {k : Nat} (h : Pass name template out k) :
    (out.length : Int) = template.length + k * ((name.length : Int) - placeholder.length) := by
  induction h with
  | done => rw [Int.natCast_zero, Int.zero_mul, Int.add_zero]
  | replace _ ih =>
    rw [List.length_append, List.length_append, Int.natCast_add, Int.natCast_add, Int.natCast_succ,
      Int.add_mul, Int.one_mul]
    omega
  | keep _ _ ih =>
    rw [List.length_cons, List.length_cons, Int.natCast_succ, Int.natCast_succ]
    omega

end Template

namespace Config

/-- **The message of the day is filled in by one pass.** What the user reads is what a pass over the
template from left to right writes, and nothing else is. The pass replaces as many placeholders as
there are in the template, and each makes the text longer by what the name has more than the
placeholder. A template without a placeholder is shown as it is, and so is every template to a user
who is called like a placeholder. -/
theorem motdText_single_pass (c : Config) (name : Bytes) :
    let template := Text.utf8 c.motd
    let k := Template.occurrences template
    (∀ out n, Template.Pass name template out n ↔ out = c.motdText name ∧ n = k) ∧
    ((c.motdText name).length : Int) = template.length + k * ((name.length : Int) - 6) ∧
    (¬ Template.placeholder <:+: template → c.motdText name = template) ∧
    c.motdText (Text.utf8 "{name}") = template := by
  intro template k
  have hplaceholder : Text.utf8 "{name}" = Template.placeholder := by decide +kernel
  refine ⟨fun out n => Template.pass_iff, (Template.pass_fill name template).length_eq,
    Template.fill_eq_self_of_not_infix name, ?_⟩
  rw [hplaceholder]
  exact Template.fill_placeholder template

/-- A name without bytes makes a placeholder of what is around the one that it replaces, and that
one stays. So does a template with a part of a placeholder. -/
theorem motdText_single_pass_nested :
    let nested : Config := { default with motd := "{na{name}me}" }
    let torn : Config := { default with motd := "{nam}" }
    Template.Pass [] (Text.utf8 nested.motd) Template.placeholder 1 ∧
      ¬ Template.placeholder <:+: Text.utf8 torn.motd ∧
      torn.motdText [0x4A, 0xFC, 0x72] = Text.utf8 torn.motd := by
  intro nested torn
  obtain ⟨hpass, -⟩ := motdText_single_pass nested []
  obtain ⟨-, -, hplain, -⟩ := motdText_single_pass torn [0x4A, 0xFC, 0x72]
  have htext : Template.placeholder = nested.motdText [] := by decide +kernel
  have hcount : 1 = Template.occurrences (Text.utf8 nested.motd) := by decide +kernel
  have hnone : ¬ Template.placeholder <:+: Text.utf8 torn.motd := by decide +kernel
  exact ⟨(hpass _ _).mpr ⟨htext, hcount⟩, hnone, hplain hnone⟩

end Config

end GameLobby
