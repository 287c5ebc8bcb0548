import Mathlib.Data.List.Nodup
import Mathlib.Data.List.Perm.Basic
import Mathlib.Data.Set.Lattice
import Mathlib.Order.CompletePartialOrder
import PgDurable.Library.Program

/-!
# Using tokens at most once

`Once allowed tokens` says that a list has no repetition and that all of it is allowed. A program
whose states record the tokens they used has a footprint: it moves along `Grows used allowed` if
what it adds is used once and allowed. Footprints of programs that run one after another are
disjoint.
-/

namespace PgDurable

variable {ι κ σ : Type*} {allowed other : Set ι} {tokens more : List ι}

/-- The tokens are distinct, and allowed. -/
def Once (allowed : Set ι) (tokens : List ι) : Prop :=
  tokens.Nodup ∧ ∀ token ∈ tokens, token ∈ allowed

namespace Once

theorem nil (allowed : Set ι) : Once allowed [] := ⟨List.nodup_nil, nofun⟩

theorem mono (h : Once allowed tokens) (hsub : allowed ⊆ other) : Once other tokens :=
  ⟨h.1, fun token htoken => hsub (h.2 token htoken)⟩

theorem sublist (h : Once allowed tokens) (hsub : more.Sublist tokens) : Once allowed more :=
  ⟨h.1.sublist hsub, fun token htoken => h.2 token (hsub.subset htoken)⟩

theorem perm (h : Once allowed tokens) (hperm : tokens.Perm more) : Once allowed more :=
  ⟨hperm.nodup_iff.1 h.1, fun token htoken => h.2 token (hperm.mem_iff.2 htoken)⟩

theorem append (h : Once allowed tokens) (h' : Once other more)
    (hdisjoint : Disjoint allowed other) :
    Once (allowed ∪ other) (tokens ++ more) := by
  refine ⟨List.nodup_append.2 ⟨h.1, h'.1, ?_⟩, ?_⟩
  · rintro token htoken _ hmore rfl
    exact Set.disjoint_left.1 hdisjoint (h.2 _ htoken) (h'.2 _ hmore)
  · intro token htoken
    rcases List.mem_append.1 htoken with htoken | htoken
    · exact Or.inl (h.2 token htoken)
    · exact Or.inr (h'.2 token htoken)

theorem cons {token : ι} (htoken : token ∈ other) (hnew : token ∉ allowed)
    (h : Once allowed tokens) (hsub : allowed ⊆ other) : Once other (token :: tokens) := by
  refine ⟨List.nodup_cons.2 ⟨fun hmem => hnew (h.2 token hmem), h.1⟩, ?_⟩
  exact List.forall_mem_cons.2 ⟨htoken, fun used hused => hsub (h.2 used hused)⟩

/-- Children with disjoint families: first a token of each, then what each of them uses. -/
theorem children {items : List κ} {id : κ → ι} {below : κ → List ι} {family : κ → Set ι}
    (h : ∀ item ∈ items, Once (family item) (id item :: below item))
    (hdisjoint : items.Pairwise fun first second => Disjoint (family first) (family second)) :
    Once (⋃ item ∈ items, family item) (items.map id ++ items.flatMap below) := by
  have hflat : Once (⋃ item ∈ items, family item)
      (items.flatMap fun item => id item :: below item) := by
    constructor
    · refine List.nodup_flatMap.2 ⟨fun item hitem => (h item hitem).1, ?_⟩
      refine hdisjoint.imp_of_mem ?_
      intro first second hfirst hsecond hdisjoint token htoken htoken'
      exact Set.disjoint_left.1 hdisjoint ((h first hfirst).2 token htoken)
        ((h second hsecond).2 token htoken')
    · intro token htoken
      obtain ⟨item, hitem, hmem⟩ := List.mem_flatMap.1 htoken
      exact Set.mem_biUnion hitem ((h item hitem).2 token hmem)
  exact hflat.perm (List.map_append_flatMap_perm items id below).symm

end Once

/-- The used tokens grow by allowed ones, each of them once. -/
def Grows (used : σ → List ι) (allowed : Set ι) (before after : σ) : Prop :=
  ∃ tokens, used after = used before ++ tokens ∧ Once allowed tokens

namespace Grows

variable {used : σ → List ι} {before middle after : σ}

theorem refl (allowed : Set ι) (state : σ) : Grows used allowed state state :=
  ⟨[], (List.append_nil _).symm, Once.nil allowed⟩

theorem mono (h : Grows used allowed before after) (hsub : allowed ⊆ other) :
    Grows used other before after := by
  obtain ⟨tokens, hused, honce⟩ := h
  exact ⟨tokens, hused, honce.mono hsub⟩

theorem trans (h : Grows used allowed before middle) (h' : Grows used other middle after)
    (hdisjoint : Disjoint allowed other) : Grows used (allowed ∪ other) before after := by
  obtain ⟨tokens, hused, honce⟩ := h
  obtain ⟨more, hmore, honce'⟩ := h'
  exact ⟨tokens ++ more, by rw [hmore, hused, List.append_assoc], honce.append honce' hdisjoint⟩

end Grows

namespace Program

variable {σ ε α β : Type} {used : σ → List ι} {all : Set ι} {first : Program σ ε α}
  {next : α → Program σ ε β}

/-- Programs with disjoint footprints, one after the other. -/
theorem moves_grows_bind (hfirst : Moves (Grows used allowed) first)
    (hnext : ∀ value, Moves (Grows used other) (next value)) (hdisjoint : Disjoint allowed other)
    (hallowed : allowed ⊆ all) (hother : other ⊆ all) :
    Moves (Grows used all) (first >>= next) :=
  moves_bind (fun h => h.mono hallowed)
    (fun h h' => (h.trans h' hdisjoint).mono (Set.union_subset hallowed hother)) hfirst hnext

/-- A program that uses nothing before one with a footprint. -/
theorem moves_grows_silent_bind (hfirst : Moves (Grows used ∅) first)
    (hnext : ∀ value, Moves (Grows used allowed) (next value)) :
    Moves (Grows used allowed) (first >>= next) :=
  moves_grows_bind hfirst hnext (Set.empty_disjoint _) (Set.empty_subset _) subset_rfl

/-- A program with a footprint before one that uses nothing. -/
theorem moves_grows_bind_silent (hfirst : Moves (Grows used allowed) first)
    (hnext : ∀ value, Moves (Grows used ∅) (next value)) :
    Moves (Grows used allowed) (first >>= next) :=
  moves_grows_bind hfirst hnext (Set.disjoint_empty _) subset_rfl (Set.empty_subset _)

end Program

end PgDurable
