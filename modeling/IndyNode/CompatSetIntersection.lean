import IndyNode.CompatSetMethods
import Mathlib.Data.Finset.Card

/-! Intersection. A `CompatSet` argument is walked while the receiver is probed,
which works for another object that is not larger than the receiver; lists and
built-in sets are always intersected. -/
namespace IndyNode.CompatSet
open OpenAddressing

variable {α : Type}

namespace Iterable

def isReceiver : Iterable α → Bool
  | .compatSet _ isSelf => isSelf
  | _ => false

def within (size : Nat) : Iterable α → Bool
  | .compatSet inner _ => inner.used ≤ size
  | _ => true

@[simp] theorem toFresh_isReceiver (other : Iterable α) : other.toFresh.isReceiver = false := by
  cases other <;> rfl

@[simp] theorem toFresh_within (size : Nat) (other : Iterable α) :
    other.toFresh.within size = other.within size := by
  cases other <;> rfl

end Iterable

namespace Inner
variable [DecidableEq α] [PyHash α]

private theorem intersection_receiver (s : Inner α) (other : Iterable α) (own : other.isReceiver = true) :
    s.intersection other = .error .typeError := by
  cases other with
  | list elems => simp [Iterable.isReceiver] at own
  | pySet elems distinct => simp [Iterable.isReceiver] at own
  | compatSet inner isSelf =>
    obtain rfl : isSelf = true := own
    rfl

/-- A larger argument has an entry, so the swapped receiver is asked. -/
theorem intersection_larger (s : Inner α) (other : Iterable α) (fits : other.Fits s)
    (foreign : other.isReceiver = false) (larger : other.within s.used = false) :
    s.intersection other = .error .attributeError := by
  cases other with
  | list elems => simp [Iterable.within] at larger
  | pySet elems distinct => simp [Iterable.within] at larger
  | compatSet inner isSelf =>
    obtain rfl : isSelf = false := foreign
    have more : inner.used > s.used := by simpa [Iterable.within] using larger
    have listed : keys inner.table ≠ [] := by
      intro empty
      have count := fits.1.used
      rw [empty,List.length_nil] at count
      omega
    obtain ⟨entry,rest,shape⟩ := List.exists_cons_of_ne_nil listed
    simp only [intersection,fits.1.entries_spec,shape,ok_bind,List.foldlM_cons,containsEntryOf,more,
      decide_true,if_true,error_bind]

variable [NonnegHash α]

private theorem Valid.intersection_spec {s : Inner α} (valid : s.Valid) (other : Iterable α)
    (fits : other.Fits s) (foreign : other.isReceiver = false) (small : other.within s.used = true) :
    ∃ final, s.intersection other = .ok final ∧ final.Valid ∧
      ∀ elem, elem ∈ final.elems ↔ elem ∈ s.elems ∧ elem ∈ other.content := by
  have probing (body : Inner α → α → Except Raised (Inner α))
      (acts : ∀ res elem, body res elem =
        (do if ← s.containsEntry (.fromElem elem) then res.addEntry (.fromElem elem) else return res))
      (items : List α) : ∃ final, items.foldlM body new = .ok final ∧ final.Valid ∧
        ∀ elem, elem ∈ final.elems ↔ elem ∈ s.elems ∧ elem ∈ items := by
    obtain ⟨final,run,kept,members⟩ := select_into_new body (· ∈ s.elems) (fun res elem => by
      rw [acts,valid.containsEntry_spec]
      by_cases inside : elem ∈ s.elems <;> simp [inside,pure,Except.pure]) items
    exact ⟨final,run,kept,fun elem => (members elem).trans and_comm⟩
  cases other with
  | list elems => exact probing _ (fun _ _ => rfl) elems
  | pySet elems distinct => exact probing _ (fun _ _ => rfl) elems
  | compatSet inner isSelf =>
    obtain rfl : isSelf = false := foreign
    have small : ¬inner.used > s.used := by simpa [Iterable.within] using small
    simp only [intersection,fits.1.entries_spec,fits.1.keys_eq,ok_bind,List.foldlM_map,
      containsEntryOf,small,decide_false]
    exact probing _ (fun _ _ => rfl) inner.elems

private theorem Valid.intersection_iff {s : Inner α} (valid : s.Valid) (other : Iterable α)
    (fits : other.Fits s) :
    (∃ final, s.intersection other = .ok final ∧ final.Valid ∧
        ∀ elem, elem ∈ final.elems ↔ elem ∈ s.elems ∧ elem ∈ other.content) ↔
      other.isReceiver = false ∧ other.within s.used = true := by
  constructor
  · rintro ⟨final,run,_⟩
    have foreign : other.isReceiver = false := by
      by_contra own
      rw [intersection_receiver s other (by simpa using own)] at run
      cases run
    refine ⟨foreign,?_⟩
    by_contra larger
    rw [intersection_larger s other fits foreign (by simpa using larger)] at run
    cases run
  · rintro ⟨foreign,small⟩
    exact valid.intersection_spec other fits foreign small

end Inner

section Public
variable [DecidableEq α]

/-- No `CompatSet` among the arguments has more elements than are left when its
turn comes. -/
def narrowing (common : Finset α) : List (Iterable α) → Bool
  | [] => true
  | other::rest => other.within common.card &&
    narrowing (common.filter (· ∈ other.content)) rest

/-- The arguments of `s.intersection(...)` for which it returns: the receiver
itself is not the first of them. -/
def Intersectable (s : Inner α) (others : List (Iterable α)) : Prop :=
  (∀ first ∈ others.head?, first.isReceiver = false) ∧ narrowing s.elems.toFinset others = true

variable [PyHash α]

private theorem Inner.Sound.card_elems {s : Inner α} (sound : s.Sound) : s.elems.toFinset.card = s.used := by
  rw [List.toFinset_card_of_nodup sound.elems_nodup,sound.elems_length]

variable [NonnegHash α]

private theorem narrowing_iff {t : Inner α} (valid : t.Valid) (rest : List (Iterable α))
    (fits : ∀ other ∈ rest, ∃ s : Inner α, other.Fits s) :
    (∃ final, rest.foldlM (fun inner other => inner.intersection other.toFresh) t = .ok final ∧
        final.Valid ∧
        ∀ elem, elem ∈ final.elems ↔ elem ∈ t.elems ∧ ∀ other ∈ rest, elem ∈ other.content) ↔
      narrowing t.elems.toFinset rest = true := by
  induction rest generalizing t with
  | nil => simpa [narrowing] using ⟨t,rfl,valid,fun _ => Iff.rfl⟩
  | cons other rest ih =>
    obtain ⟨s,fit⟩ := fits other (by simp)
    have fresh := Iterable.toFresh_fits s t other fit
    have single := valid.intersection_iff other.toFresh fresh
    rw [Iterable.toFresh_isReceiver,Iterable.toFresh_within,Iterable.toFresh_content] at single
    rw [narrowing,Bool.and_eq_true,valid.card_elems,List.foldlM_cons]
    have later (u : Inner α) (good : u.Valid)
        (common : ∀ elem, elem ∈ u.elems ↔ elem ∈ t.elems ∧ elem ∈ other.content) :
        narrowing (t.elems.toFinset.filter (· ∈ other.content)) rest = true ↔
          ∃ final, rest.foldlM (fun inner other => inner.intersection other.toFresh) u = .ok final ∧
            final.Valid ∧
            ∀ elem, elem ∈ final.elems ↔ elem ∈ u.elems ∧ ∀ other ∈ rest, elem ∈ other.content := by
      rw [ih good (fun item member => fits item (by simp [member]))]
      have same : t.elems.toFinset.filter (· ∈ other.content) = u.elems.toFinset := by
        ext elem
        simp [common]
      rw [same]
    constructor
    · rintro ⟨final,run,kept,members⟩
      obtain ⟨u,step,loop⟩ := bind_success _ _ _ run
      have small : other.within t.used = true := by
        by_contra larger
        rw [Inner.intersection_larger t other.toFresh fresh (by simp) (by simpa using larger)] at step
        cases step
      obtain ⟨v,again,good,common⟩ := single.mpr ⟨rfl,small⟩
      obtain rfl := Except.ok.inj (again.symm.trans step)
      refine ⟨small,(later v good common).mpr ⟨final,loop,kept,fun elem => ?_⟩⟩
      rw [members,common,and_assoc]
      simp only [List.mem_cons,or_imp,forall_and,forall_eq]
    · rintro ⟨small,narrow⟩
      obtain ⟨u,step,good,common⟩ := single.mpr ⟨rfl,small⟩
      obtain ⟨final,loop,kept,members⟩ := (later u good common).mp narrow
      refine ⟨final,by rw [step,ok_bind,loop],kept,fun elem => ?_⟩
      rw [members,common,and_assoc]
      simp only [List.mem_cons,or_imp,forall_and,forall_eq]

private theorem intersectable_iff {s : Inner α} (valid : s.Valid) (others : List (Iterable α))
    (fits : ∀ other ∈ others, other.Fits s) :
    (∃ final, intersection s others = .ok final ∧ final.Valid ∧
        ∀ elem, elem ∈ final.elems ↔ elem ∈ s.elems ∧ ∀ other ∈ others, elem ∈ other.content) ↔
      Intersectable s others := by
  cases others with
  | nil =>
    obtain ⟨final,run,kept,same⟩ := valid.copy_spec
    simpa [Intersectable,narrowing] using ⟨final,run,kept,same⟩
  | cons first rest =>
    have chain := narrowing_iff valid (first::rest) (fun other member => ⟨s,fits other member⟩)
    simp only [Intersectable,List.head?_cons,Option.mem_some_iff,forall_eq',← chain]
    by_cases own : first.isReceiver = true
    · have fails : intersection s (first::rest) = .error .typeError := by
        rw [intersection,Inner.intersection_receiver s first own,error_bind]
      simp [fails,own]
    · have foreign : first.isReceiver = false := by simpa using own
      have same : first.toFresh = first := by
        cases first with
        | list elems => rfl
        | pySet elems distinct => rfl
        | compatSet inner isSelf =>
          obtain rfl : isSelf = false := foreign
          rfl
      rw [List.foldlM_cons,same]
      simp [intersection,foreign]

end Public

/-- Intersection with any arguments, with `&` and with `&=`: each call returns
the common elements exactly for the arguments it can handle. -/
theorem intersection_common_iff (s : Inner Nat) (other : Iterable Nat) (others : List (Iterable Nat))
    (valid : s.Valid) (fit : other.Fits s) (fits : ∀ other ∈ others, other.Fits s) :
    ((∃ final, intersection s others = .ok final ∧ final.Valid ∧
        ∀ elem, elem ∈ final.elems ↔ elem ∈ s.elems ∧ ∀ other ∈ others, elem ∈ other.content) ↔
      Intersectable s others) ∧
    ((∃ final, andOp s other = .ok final ∧ final.Valid ∧
        ∀ elem, elem ∈ final.elems ↔ elem ∈ s.elems ∧ elem ∈ other.content) ↔
      other.isReceiver = false ∧ other.within s.used = true) ∧
    ((∃ final, iandOp s other = .ok final ∧ final.Valid ∧
        ∀ elem, elem ∈ final.elems ↔ elem ∈ s.elems ∧ elem ∈ other.content) ↔
      other.isReceiver = false ∧ other.within s.used = true) := by
  have single : andOp s other = iandOp s other := by
    rw [andOp,iandOp,intersection]
    simp only [List.foldlM_nil,bind_pure]
  rw [single]
  exact ⟨intersectable_iff valid others fits,valid.intersection_iff other fit,
    valid.intersection_iff other fit⟩

theorem intersection_with_smaller_set :
    (∃ final, intersection (ofList [1,2,3]) [.list [3,2,2],.compatSet (ofList [10,2]) false] =
        .ok final ∧ final.Valid ∧
        ∀ elem, elem ∈ final.elems ↔ elem ∈ (ofList [1,2,3]).elems ∧
          ∀ other ∈ [Iterable.list [3,2,2],.compatSet (ofList [10,2]) false], elem ∈ other.content) ∧
      ∃ final, andOp (ofList [1,2,3]) (.compatSet (ofList [10,2]) false) = .ok final ∧ final.Valid ∧
        ∀ elem, elem ∈ final.elems ↔ elem ∈ (ofList [1,2,3]).elems ∧ elem ∈ (ofList [10,2]).elems := by
  have fit : (Iterable.compatSet (ofList [10,2]) false).Fits (ofList [1,2,3]) :=
    ⟨ofList_valid _,fun impossible => by cases impossible⟩
  have general := intersection_common_iff (ofList [1,2,3]) (.compatSet (ofList [10,2]) false)
    [.list [3,2,2],.compatSet (ofList [10,2]) false] (ofList_valid _) fit (by
      intro other member
      rcases List.mem_cons.mp member with rfl | later
      · trivial
      · rw [List.mem_singleton.mp later]
        exact fit)
  refine ⟨general.1.mpr ⟨?_,by decide⟩,general.2.1.mpr ⟨rfl,by decide⟩⟩
  intro first head
  obtain rfl := Option.some.inj head
  rfl

/-- A larger set, the set itself, and a set larger than what is left. -/
theorem intersection_raises :
    andOp (ofList [1]) (.compatSet (ofList [1,2]) false) = .error .attributeError ∧
      andOp (ofList [1]) (.compatSet (ofList [1]) true) = .error .typeError ∧
      iandOp (ofList [1]) (.compatSet (ofList [1]) true) = .error .typeError ∧
      intersection (ofList [1,2,3]) [.list [1],.compatSet (ofList [1,2]) false] =
        .error .attributeError := by
  decide

end IndyNode.CompatSet
