import Mathlib.Data.List.Forall2

/-!
# Notices, and what a reader has been told of them

Notices are posted one after the other, and of each a reader may be told something. `InOrder` says that
the reader has been told of the notices in their order, and of none twice: what any number of readers
have been told fits into the one order in which the notices were posted.
-/

/-! ## Posting and telling -/

/-- The notices posted since a reader came, and what it has been told. -/
structure Bulletin (α β : Type*) where
  posted : List α
  told : List β

namespace Bulletin

variable {α β : Type*}

/-- The reader has just come. -/
def new : Bulletin α β := ⟨[], []⟩

def post (bulletin : Bulletin α β) (notice : α) : Bulletin α β :=
  { bulletin with posted := bulletin.posted ++ [notice] }

def tell (bulletin : Bulletin α β) (news : β) : Bulletin α β :=
  { bulletin with told := bulletin.told ++ [news] }

/-! ## What is heard in order -/

/-- **The reader has been told of the notices in order**, of some of them, and of each once: `R` says what
it may be told of a notice. -/
def InOrder (R : β → α → Prop) (bulletin : Bulletin α β) : Prop :=
  List.SublistForall₂ R bulletin.told bulletin.posted

variable {R : β → α → Prop} {bulletin : Bulletin α β}

theorem inOrder_new (R : β → α → Prop) : (new : Bulletin α β).InOrder R := .nil

/-- A notice may be passed over. -/
theorem InOrder.post (h : bulletin.InOrder R) (notice : α) : (bulletin.post notice).InOrder R := by
  obtain ⟨picked, hpicked, hsub⟩ := List.sublistForall₂_iff.mp h
  exact List.sublistForall₂_iff.mpr ⟨picked, hpicked, hsub.trans (List.sublist_append_left _ _)⟩

/-- The reader may be told of the last notice if nothing has been said of it yet. -/
theorem InOrder.post_tell (h : bulletin.InOrder R) {notice : α} {news : β} (hnews : R news notice) :
    ((bulletin.post notice).tell news).InOrder R := by
  obtain ⟨picked, hpicked, hsub⟩ := List.sublistForall₂_iff.mp h
  exact List.sublistForall₂_iff.mpr ⟨picked ++ [notice],
    List.rel_append hpicked (.cons hnews .nil), hsub.append (List.Sublist.refl _)⟩

end Bulletin
