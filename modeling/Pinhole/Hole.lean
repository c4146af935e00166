import Pinhole.Rule
import Pinhole.Value

/-!
# Holes

A hole is a port that the firewall accepts packets to, on one interface or on any. A `Registry`
holds the holes that are open, in one order without repetition: TCP before UDP, then by port, then
by interface. It is the record of what has to be closed before the process goes away.

The two changes are pinned down by what they make tracked: `mem_insert_iff` and `mem_erase_iff`.
-/

namespace Pinhole

/-- An open inbound port. The empty interface stands for any. -/
structure Hole where
  protocol : Protocol
  port : Int
  interface : String
  deriving DecidableEq, Repr

namespace Hole

/-- A hole as it is shown to readers. -/
def describe (h : Hole) : String :=
  h.protocol.title ++ " port " ++ toString h.port ++ " on " ++
    (if h.interface.isEmpty then "any interface" else "'" ++ h.interface ++ "'")

/-- The rule that opens a hole. -/
def rule (h : Hole) : Rule := .accept h.protocol h.port h.interface

/-- The order of holes: by protocol, by port, by interface. -/
def before (a b : Hole) : Prop :=
  a.protocol.rank < b.protocol.rank ∨
    (a.protocol.rank = b.protocol.rank ∧
      (a.port < b.port ∨ (a.port = b.port ∧ a.interface < b.interface)))

instance (a b : Hole) : Decidable (a.before b) := by unfold before; infer_instance

theorem before_irrefl (a : Hole) : ¬ a.before a := by simp [before]

theorem before_trans {a b c : Hole} (hab : a.before b) (hbc : b.before c) : a.before c := by
  unfold before at *
  rcases hab with h | ⟨h, h' | ⟨h', h''⟩⟩ <;> rcases hbc with k | ⟨k, k' | ⟨k', k''⟩⟩
  all_goals first
    | (left; omega)
    | (right; refine ⟨by omega, ?_⟩; left; omega)
    | (right; refine ⟨by omega, Or.inr ⟨by omega, String.lt_trans h'' k''⟩⟩)

/-- Two different holes stand in one order or the other. -/
theorem before_of_not_before {a b : Hole} (ne : a ≠ b) (h : ¬ a.before b) : b.before a := by
  obtain ⟨p, n, i⟩ := a
  obtain ⟨q, m, j⟩ := b
  simp only [before, not_or, not_and] at h ⊢
  obtain ⟨h₁, h₂⟩ := h
  by_cases hr : q.rank < p.rank
  · exact Or.inl hr
  · have he : p.rank = q.rank := by omega
    obtain ⟨h₃, h₄⟩ := h₂ he
    refine Or.inr ⟨he.symm, ?_⟩
    by_cases hm : m < n
    · exact Or.inl hm
    · have hn : n = m := by omega
      refine Or.inr ⟨hn.symm, ?_⟩
      have hp : p = q := by cases p <;> cases q <;> simp_all [Protocol.rank]
      have hij : i ≠ j := fun e => ne (by rw [hp, hn, e])
      have hle : j ≤ i := String.not_lt.1 (h₄ hn)
      exact Decidable.byContradiction fun hji =>
        hij (String.le_antisymm (String.not_lt.1 hji) hle)

end Hole

/-- The open holes, in order and without repetition. -/
structure Registry where
  holes : List Hole := []
  sorted : holes.Pairwise Hole.before := by simp

namespace Registry

/-- Puts a hole at its place among others. -/
def insertHole (h : Hole) : List Hole → List Hole
  | [] => [h]
  | k :: rest =>
    if h = k then k :: rest
    else if h.before k then h :: k :: rest
    else k :: insertHole h rest

theorem mem_insertHole {h k : Hole} {hs : List Hole} :
    k ∈ insertHole h hs ↔ k = h ∨ k ∈ hs := by
  induction hs with
  | nil => simp [insertHole]
  | cons a hs ih =>
    unfold insertHole
    split
    · rename_i e; subst e; simp
    · split
      · simp
      · simp [ih, or_left_comm]

theorem pairwise_insertHole {h : Hole} {hs : List Hole} (sorted : hs.Pairwise Hole.before) :
    (insertHole h hs).Pairwise Hole.before := by
  induction hs with
  | nil => simp [insertHole]
  | cons a hs ih =>
    have ha := List.pairwise_cons.1 sorted
    unfold insertHole
    split
    · exact sorted
    · rename_i ne
      split
      · rename_i lt
        refine List.pairwise_cons.2 ⟨fun k hk => ?_, sorted⟩
        rcases List.mem_cons.1 hk with rfl | hk
        · exact lt
        · exact Hole.before_trans lt (ha.1 k hk)
      · rename_i lt
        refine List.pairwise_cons.2 ⟨fun k hk => ?_, ih ha.2⟩
        rcases mem_insertHole.1 hk with rfl | hk
        · exact Hole.before_of_not_before ne lt
        · exact ha.1 k hk

/-- Tracks one more hole. -/
def insert (r : Registry) (h : Hole) : Registry :=
  ⟨insertHole h r.holes, pairwise_insertHole r.sorted⟩

/-- Tracks a hole no longer. -/
def erase (r : Registry) (h : Hole) : Registry :=
  ⟨r.holes.filter (· ≠ h), r.sorted.sublist (List.filter_sublist)⟩

instance : Membership Hole Registry := ⟨fun r h => h ∈ r.holes⟩

instance (h : Hole) (r : Registry) : Decidable (h ∈ r) :=
  inferInstanceAs (Decidable (h ∈ r.holes))

/-- The open holes of one protocol, by port and interface. -/
def ofProtocol (r : Registry) (p : Protocol) : List Hole := r.holes.filter (·.protocol = p)

/-- Whether a hole is tracked, for a port of which nothing is known: it counts when it is the
number of the hole's port. -/
def tracks (r : Registry) (protocol : Protocol) (port : Value) (interface : String) : Bool :=
  r.holes.any fun h =>
    h.protocol == protocol && Value.sameKey (.int h.port) port && h.interface == interface

/-- After an insertion exactly one more hole is tracked. -/
theorem mem_insert_iff {r : Registry} {h k : Hole} : k ∈ r.insert h ↔ k = h ∨ k ∈ r :=
  mem_insertHole

/-- After an erasure exactly that hole is tracked no longer. -/
theorem mem_erase_iff {r : Registry} {h k : Hole} : k ∈ r.erase h ↔ k ∈ r ∧ k ≠ h := by
  change k ∈ r.holes.filter (· ≠ h) ↔ k ∈ r.holes ∧ k ≠ h
  simp

/-- No hole is tracked twice. -/
theorem nodup (r : Registry) : r.holes.Nodup := by
  refine List.Pairwise.imp ?_ r.sorted
  rintro a b h rfl
  exact Hole.before_irrefl a h

end Registry

end Pinhole
