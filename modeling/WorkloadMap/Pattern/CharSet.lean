/-!
Sets of characters as runs of code points. Main statements: the operations do to members what their
names say.
-/
namespace WorkloadMap.Pattern

/-- Runs of code points in ascending order from `next` on, each with a gap before the one after it.
-/
def Ascending (next : Nat) : List (Nat × Nat) → Prop
  | [] => True
  | (first, last) :: runs => next ≤ first ∧ first ≤ last ∧ Ascending (last + 2) runs

theorem Ascending.mono {m n : Nat} (h : m ≤ n) {runs : List (Nat × Nat)} (hn : Ascending n runs) :
    Ascending m runs := by
  cases runs with
  | nil => trivial
  | cons run runs => exact ⟨Nat.le_trans h hn.1, hn.2⟩

/-- The code points in some run, ends included. The order and the gaps leave one way to write a set.
-/
structure CharSet where
  runs : List (Nat × Nat)
  ascending : Ascending 0 runs

namespace CharSet

instance : BEq CharSet := ⟨fun s t => s.runs == t.runs⟩

/-- Whether a code point is in one of the runs. -/
def covers (runs : List (Nat × Nat)) (n : Nat) : Bool :=
  runs.any fun (first, last) => first ≤ n && n ≤ last

def contains (s : CharSet) (c : Char) : Bool := covers s.runs c.toNat

def empty : CharSet := ⟨[], trivial⟩

def single (c : Char) : CharSet := ⟨[(c.toNat, c.toNat)], by simp [Ascending]⟩

/-- A run becomes one with those that it touches. -/
def insertRun (first last : Nat) : List (Nat × Nat) → List (Nat × Nat)
  | [] => [(first, last)]
  | (a, b) :: runs =>
    if last + 1 < a then (first, last) :: (a, b) :: runs
    else if b + 1 < first then (a, b) :: insertRun first last runs
    else insertRun (min first a) (max last b) runs

theorem ascending_insertRun {next first last : Nat} (hf : next ≤ first) (h : first ≤ last)
    {runs : List (Nat × Nat)} (hs : Ascending next runs) :
    Ascending next (insertRun first last runs) := by
  induction runs generalizing next first last with
  | nil => exact ⟨hf, h, trivial⟩
  | cons run runs ih =>
    obtain ⟨a, b⟩ := run
    obtain ⟨ha, hab, hs⟩ := hs
    simp only [insertRun]
    split
    next hl => exact ⟨hf, h, by omega, hab, hs⟩
    split
    next hb => exact ⟨ha, hab, ih (by omega) h hs⟩
    next => exact ih (by omega) (by omega) (hs.mono (by omega))

theorem covers_insertRun {next first last n : Nat} (h : first ≤ last) {runs : List (Nat × Nat)}
    (hs : Ascending next runs) :
    covers (insertRun first last runs) n = ((first ≤ n && n ≤ last) || covers runs n) := by
  simp only [covers]
  induction runs generalizing next first last with
  | nil => simp [insertRun]
  | cons run runs ih =>
    obtain ⟨a, b⟩ := run
    obtain ⟨ha, hab, hs⟩ := hs
    simp only [insertRun]
    split
    · simp
    split
    · rw [List.any_cons, ih h hs, List.any_cons]
      simp only [← Bool.or_assoc]
      rw [Bool.or_comm (decide (a ≤ n) && decide (n ≤ b))]
    · rw [ih (by omega) hs, List.any_cons, ← Bool.or_assoc]
      congr 1
      rw [Bool.eq_iff_iff]
      simp only [Bool.or_eq_true, Bool.and_eq_true, decide_eq_true_eq]
      omega

def insert (s : CharSet) (run : Nat × Nat) : CharSet :=
  if h : run.1 ≤ run.2 then
    ⟨insertRun run.1 run.2 s.runs, ascending_insertRun (Nat.zero_le _) h s.ascending⟩
  else s

def addRuns (s : CharSet) (runs : List (Nat × Nat)) : CharSet :=
  runs.foldr (fun run s => s.insert run) s

def ofRuns (runs : List (Nat × Nat)) : CharSet := empty.addRuns runs

def ofChars (runs : List (Char × Char)) : CharSet :=
  ofRuns (runs.map fun (first, last) => (first.toNat, last.toNat))

def union (s t : CharSet) : CharSet := t.addRuns s.runs

/-- The greatest code point. -/
def top : Nat := 0x10FFFF

/-- What the runs leave out, from `next` on. -/
def gaps (next : Nat) : List (Nat × Nat) → List (Nat × Nat)
  | [] => if next ≤ top then [(next, top)] else []
  | (first, last) :: runs =>
    if next < first then (next, first - 1) :: gaps (last + 1) runs else gaps (last + 1) runs

theorem ascending_gaps {next : Nat} {runs : List (Nat × Nat)} (hs : Ascending (next + 1) runs) :
    Ascending next (gaps next runs) := by
  induction runs generalizing next with
  | nil =>
    simp only [gaps]
    split
    next h => exact ⟨Nat.le_refl _, h, trivial⟩
    next => trivial
  | cons run runs ih =>
    obtain ⟨a, b⟩ := run
    obtain ⟨ha, hab, hs⟩ := hs
    simp only [gaps, Nat.lt_of_succ_le ha, if_true]
    exact ⟨Nat.le_refl _, by omega, (ih hs).mono (by omega)⟩

def complement (s : CharSet) : CharSet :=
  ⟨gaps 0 s.runs, by
    obtain ⟨runs, hs⟩ := s
    cases runs with
    | nil => simp [gaps, top, Ascending]
    | cons run runs =>
      obtain ⟨a, b⟩ := run
      obtain ⟨-, hab, hs⟩ := hs
      simp only [gaps]
      split
      next h => exact ⟨Nat.le_refl _, by omega, (ascending_gaps hs).mono (by omega)⟩
      next => exact (ascending_gaps hs).mono (by omega)⟩

def inter (s t : CharSet) : CharSet := (s.complement.union t.complement).complement

def minus (s t : CharSet) : CharSet := (s.complement.union t).complement

def differ (s t : CharSet) : CharSet := (s.minus t).union (t.minus s)

/-- The member of a set that has only one. -/
def only? (s : CharSet) : Option Char :=
  match s.runs with
  | [(first, last)] => if first = last then some (Char.ofNat first) else none
  | _ => none

theorem covers_insert (s : CharSet) (run : Nat × Nat) (n : Nat) :
    covers (s.insert run).runs n = ((run.1 ≤ n && n ≤ run.2) || covers s.runs n) := by
  simp only [insert]
  split
  next h => exact covers_insertRun h s.ascending
  next h =>
    have : (decide (run.1 ≤ n) && decide (n ≤ run.2)) = false := by
      rw [Bool.and_eq_false_iff]
      simp only [decide_eq_false_iff_not]
      omega
    simp [this]

theorem covers_addRuns (s : CharSet) (runs : List (Nat × Nat)) (n : Nat) :
    covers (s.addRuns runs).runs n = (covers runs n || covers s.runs n) := by
  induction runs with
  | nil => rfl
  | cons run runs ih =>
    show covers ((s.addRuns runs).insert run).runs n = _
    rw [covers_insert, ih, ← Bool.or_assoc]
    rfl

theorem covers_eq_false {next n : Nat} {runs : List (Nat × Nat)} (hs : Ascending next runs)
    (hn : n < next) : covers runs n = false := by
  induction runs generalizing next with
  | nil => rfl
  | cons run runs ih =>
    obtain ⟨ha, hab, hs⟩ := hs
    have hrun : (decide (run.1 ≤ n) && decide (n ≤ run.2)) = false := by
      rw [Bool.and_eq_false_iff]
      simp only [decide_eq_false_iff_not]
      omega
    simp only [covers] at ih
    simp only [covers, List.any_cons, hrun, Bool.false_or]
    exact ih hs (by omega)

theorem covers_gaps {next n : Nat} {runs : List (Nat × Nat)} (hs : Ascending next runs)
    (hn : n ≤ top) : covers (gaps next runs) n = (next ≤ n && !covers runs n) := by
  induction runs generalizing next with
  | nil =>
    simp only [gaps]
    split <;> simp [covers] <;> omega
  | cons run runs ih =>
    obtain ⟨a, b⟩ := run
    obtain ⟨ha, hab, hs⟩ := hs
    have hrest := ih (hs.mono (Nat.le_succ _))
    have hfalse := fun h : n < b + 2 => covers_eq_false hs h
    simp only [covers] at hrest hfalse
    simp only [gaps, covers]
    rw [Bool.eq_iff_iff]
    split <;> simp only [List.any_cons, hrest] <;>
      by_cases hb : n < b + 2 <;>
      simp only [Bool.or_eq_true, Bool.and_eq_true, decide_eq_true_eq, Bool.not_eq_true',
        Bool.or_eq_false_iff, Bool.and_eq_false_iff, decide_eq_false_iff_not, hfalse, hb] <;>
      grind

@[simp] theorem contains_empty (c : Char) : empty.contains c = false := rfl

@[simp] theorem contains_single (c d : Char) : (single c).contains d = (c == d) := by
  simp only [contains, single, covers, List.any_cons, List.any_nil, Bool.or_false]
  rw [Bool.eq_iff_iff]
  simp only [Bool.and_eq_true, decide_eq_true_eq, beq_iff_eq]
  constructor
  · intro h
    exact Char.ext (UInt32.toNat_inj.1 (Nat.le_antisymm h.1 h.2))
  · rintro rfl
    exact ⟨Nat.le_refl _, Nat.le_refl _⟩

@[simp] theorem contains_union (s t : CharSet) (c : Char) :
    (s.union t).contains c = (s.contains c || t.contains c) :=
  covers_addRuns t s.runs c.toNat

@[simp] theorem contains_complement (s : CharSet) (c : Char) :
    s.complement.contains c = !s.contains c := by
  have hc : c.toNat ≤ top := by
    have := c.valid
    simp only [top, Char.toNat, UInt32.isValidChar, Nat.isValidChar] at *
    omega
  simpa [contains, complement] using covers_gaps s.ascending hc

@[simp] theorem contains_inter (s t : CharSet) (c : Char) :
    (s.inter t).contains c = (s.contains c && t.contains c) := by
  simp [inter]

@[simp] theorem contains_minus (s t : CharSet) (c : Char) :
    (s.minus t).contains c = (s.contains c && !t.contains c) := by
  simp [minus]

@[simp] theorem contains_differ (s t : CharSet) (c : Char) :
    (s.differ t).contains c = (s.contains c != t.contains c) := by
  simp only [differ, contains_union, contains_minus]
  cases s.contains c <;> cases t.contains c <;> rfl

end CharSet

end WorkloadMap.Pattern
