import GameLobby.Proofs.Registry.Effects
import GameLobby.Session.Turn

/-!
# Deeds

A turn comes to a list of deeds, which are registry calls and offers. `Deed.performAll` does them in
order. What a deed does to the registry does not depend on what was offered before, so it can be
said of the registry alone that each deed of a list is in order where it is done (`Deed.Each`).
-/

namespace GameLobby

/-- One thing that is done in a turn. -/
inductive Deed where
  /-- A registry call. -/
  | call (c : Registry.Call)
  /-- A message to one client. -/
  | send (conn : ConnectionId) (m : Message)
  /-- News for the subscribers of its topic. -/
  | tell (news : News)
  /-- A message to recipients whatever they subscribed to. -/
  | exhibit (recipients : List ConnectionId) (m : Message)

namespace Deed

variable (rules : Rules)

/-- The registry after a deed. -/
def after (reg : Registry) : Deed → Registry
  | .call c => c.apply reg
  | _ => reg

/-- What a deed offers. -/
def offers (reg : Registry) : Deed → List Offer
  | .call _ => []
  | .send conn m => [⟨conn, m⟩]
  | .tell news => news.offers rules.config.announceLogins reg
  | .exhibit recipients m => m.offers recipients

/-- A turn after a deed. -/
def perform (t : Turn) (d : Deed) : Turn :=
  ⟨d.after t.registry, t.offers ++ d.offers rules t.registry⟩

/-- A turn after some deeds. -/
def performAll (ds : List Deed) (t : Turn) : Turn :=
  ds.foldl (perform rules) t

/-- The registry after some deeds. -/
def afterAll (reg : Registry) (ds : List Deed) : Registry :=
  ds.foldl after reg

/-- What some deeds offer. -/
def offersAll (rules : Rules) : Registry → List Deed → List Offer
  | _, [] => []
  | reg, d :: ds => d.offers rules reg ++ offersAll rules (d.after reg) ds

/-- Each deed is `P` in the registry that it finds. -/
def Each (P : Registry → Deed → Prop) : Registry → List Deed → Prop
  | _, [] => True
  | reg, d :: ds => P reg d ∧ Each P (d.after reg) ds

/-! ## One deed after the other -/

section Perform

variable {rules}

@[simp] theorem performAll_nil (t : Turn) : performAll rules [] t = t := rfl

@[simp] theorem performAll_cons (d : Deed) (ds : List Deed) (t : Turn) :
    performAll rules (d :: ds) t = performAll rules ds (d.perform rules t) := rfl

@[simp] theorem performAll_append (ds es : List Deed) (t : Turn) :
    performAll rules (ds ++ es) t = performAll rules es (performAll rules ds t) :=
  List.foldl_append ..

@[simp] theorem perform_call (c : Registry.Call) (t : Turn) :
    perform rules t (.call c) = { t with registry := c.apply t.registry } := by
  simp [perform, after, offers]

@[simp] theorem perform_send (conn : ConnectionId) (m : Message) (t : Turn) :
    perform rules t (.send conn m) = { t with offers := t.offers ++ [⟨conn, m⟩] } := rfl

@[simp] theorem perform_tell (news : News) (t : Turn) :
    perform rules t (.tell news) =
      { t with offers := t.offers ++ news.offers rules.config.announceLogins t.registry } := rfl

@[simp] theorem perform_exhibit (recipients : List ConnectionId) (m : Message) (t : Turn) :
    perform rules t (.exhibit recipients m) =
      { t with offers := t.offers ++ m.offers recipients } := rfl

/-- What deeds do to the registry and what they offer does not depend on earlier offers. -/
theorem performAll_eq (ds : List Deed) (t : Turn) :
    performAll rules ds t =
      ⟨afterAll t.registry ds, t.offers ++ offersAll rules t.registry ds⟩ := by
  induction ds generalizing t with
  | nil => simp [afterAll, offersAll]
  | cons d ds ih =>
    rw [performAll_cons, ih]
    simp [perform, afterAll, offersAll]

theorem registry_performAll (ds : List Deed) (t : Turn) :
    (performAll rules ds t).registry = afterAll t.registry ds := by
  rw [performAll_eq]

section Lists

variable {α : Type} (reg : Registry) (conn : ConnectionId) (f : α → Message) (l : List α)
  (news : List News)

theorem afterAll_sends : afterAll reg (l.map fun a => .send conn (f a)) = reg := by
  induction l with
  | nil => rfl
  | cons a l ih => exact ih

theorem offersAll_sends :
    offersAll rules reg (l.map fun a => .send conn (f a)) = l.map fun a => ⟨conn, f a⟩ := by
  induction l with
  | nil => rfl
  | cons a l ih =>
    rw [List.map_cons, List.map_cons, ← ih]
    rfl

theorem performAll_sends (t : Turn) :
    performAll rules (l.map fun a => .send conn (f a)) t =
      { t with offers := t.offers ++ l.map fun a => ⟨conn, f a⟩ } := by
  rw [performAll_eq, afterAll_sends, offersAll_sends]

theorem afterAll_tells : afterAll reg (news.map .tell) = reg := by
  induction news with
  | nil => rfl
  | cons n news ih => exact ih

theorem offersAll_tells :
    offersAll rules reg (news.map .tell) =
      news.flatMap (·.offers rules.config.announceLogins reg) := by
  induction news with
  | nil => rfl
  | cons n news ih =>
    rw [List.map_cons, List.flatMap_cons, ← ih]
    rfl

theorem performAll_tells (t : Turn) :
    performAll rules (news.map .tell) t =
      { t with
        offers := t.offers ++
          news.flatMap (·.offers rules.config.announceLogins t.registry) } := by
  rw [performAll_eq, afterAll_tells, offersAll_tells]

end Lists

end Perform

/-! ## Each of some deeds -/

section Each

variable {P Q : Registry → Deed → Prop}

theorem afterAll_append (reg : Registry) (ds es : List Deed) :
    afterAll reg (ds ++ es) = afterAll (afterAll reg ds) es :=
  List.foldl_append ..

@[simp] theorem each_nil (reg : Registry) : Each P reg [] := trivial

@[simp] theorem each_cons (reg : Registry) (d : Deed) (ds : List Deed) :
    Each P reg (d :: ds) ↔ P reg d ∧ Each P (d.after reg) ds := .rfl

@[simp] theorem each_append (reg : Registry) (ds es : List Deed) :
    Each P reg (ds ++ es) ↔ Each P reg ds ∧ Each P (afterAll reg ds) es := by
  induction ds generalizing reg with
  | nil => simp [afterAll]
  | cons d ds ih =>
    rw [List.cons_append, each_cons, each_cons, ih, and_assoc]
    rfl

/-- Deeds that are no calls find the registry as it was. -/
theorem each_of_mem {reg : Registry} {ds : List Deed} (hreg : ∀ d ∈ ds, d.after reg = reg)
    (h : ∀ d ∈ ds, P reg d) : Each P reg ds := by
  induction ds with
  | nil => trivial
  | cons d ds ih =>
    obtain ⟨hd, hds⟩ := List.forall_mem_cons.mp hreg
    obtain ⟨hp, hps⟩ := List.forall_mem_cons.mp h
    refine ⟨hp, ?_⟩
    rw [hd]
    exact ih hds hps

theorem Each.imp {reg : Registry} {ds : List Deed} (h : Each P reg ds)
    (himp : ∀ reg d, P reg d → Q reg d) : Each Q reg ds := by
  induction ds generalizing reg with
  | nil => trivial
  | cons d ds ih => exact ⟨himp reg d h.1, ih h.2⟩

/-- What each deed keeps, all of them keep. -/
theorem Each.preserves {I : Registry → Prop} {reg : Registry} {ds : List Deed}
    (h : Each P reg ds) (hI : I reg) (hstep : ∀ reg d, P reg d → I reg → I (d.after reg)) :
    I (afterAll reg ds) := by
  induction ds generalizing reg with
  | nil => exact hI
  | cons d ds ih => exact ih h.2 (hstep reg d h.1 hI)

end Each

end Deed

end GameLobby
