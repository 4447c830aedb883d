import Harvest.Json.Record

/-! Reading a record from an object does not depend on the order of its members. Each field takes up
its own value only, so the members can be gone through in the order of the fields instead: a field
that is named takes up what stands there, and any other stays as it is. -/

namespace Harvest.Json

/-- It makes no difference which of two fields takes up its value first. -/
def Slot.Commutes (a b : Slot ρ) : Prop :=
  ∀ d d' r, (a.set d r).bind (b.set d') = (b.set d' r).bind (a.set d)

theorem Slot.commutes_of {name name' : String} {read : Draft → Option α} {read' : Draft → Option β}
    {put : α → ρ → ρ} {put' : β → ρ → ρ} (h : ∀ a b r, put' b (put a r) = put a (put' b r)) :
    Commutes (.of name read put) (.of name' read' put') := by
  intro d d' r
  cases ha : read d with
  | none => cases hb : read' d' <;> simp [Slot.of, ha, hb]
  | some a => cases hb : read' d' <;> simp [Slot.of, ha, hb, h]

/-- Whether a field can take up a value does not hang on the record that it is for. -/
def Slot.Uniform (field : Slot ρ) : Prop :=
  ∀ d r r', (field.set d r).isSome = (field.set d r').isSome

theorem Slot.uniform_of {name : String} {read : Draft → Option α} {put : α → ρ → ρ} :
    (Slot.of name read put).Uniform := by
  intro d r r'
  cases h : read d <;> simp [Slot.of, h]

namespace Draft

/-- The members of an object as they stand there. -/
abbrev Members := List (Option String × Draft)

variable {fields : List (Slot ρ)} {members : Members} {d : Draft}

/-- Sets those of the fields that the members name. -/
def setNamed (members : Members) : List (Slot ρ) → ρ → Option ρ
  | [], r => some r
  | field :: fields, r =>
    match members.lookup (some field.name) with
    | none => setNamed members fields r
    | some d => (field.set d r).bind (setNamed members fields)

/-- If the members name the field, then with a value that any record can take up. -/
def Reads (members : Members) (field : Slot ρ) : Prop :=
  ∀ d, members.lookup (some field.name) = some d → ∀ r, (field.set d r).isSome

theorem reads_of {field : Slot ρ} (hu : field.Uniform) (base : ρ)
    (h : (members.lookup (some field.name)).all (fun d => (field.set d base).isSome) = true) :
    Reads members field := by
  intro d hd r
  rw [hd] at h
  exact (hu d r base).trans h

/-- Every member has a name, and no two have that of the same field. -/
structure Distinct (fields : List (Slot ρ)) (members : Members) : Prop where
  names : ∀ m ∈ members, m.1 ≠ none
  once : members.Pairwise fun a b => a.1 = b.1 → ∀ field ∈ fields, a.1 ≠ some field.name

theorem lookup_cons_of_ne {n n' : String} (h : n' ≠ n) :
    List.lookup (some n') ((some n, d) :: members) = members.lookup (some n') := by
  rw [List.lookup_cons, beq_false_of_ne (by simpa using h)]

theorem setNamed_cons_other {n : String} (h : ∀ field ∈ fields, field.name ≠ n) (r : ρ) :
    setNamed ((some n, d) :: members) fields r = setNamed members fields r := by
  induction fields generalizing r with
  | nil => rfl
  | cons field fields ih =>
    obtain ⟨hne, hrest⟩ := List.forall_mem_cons.mp h
    simp only [setNamed, lookup_cons_of_ne hne]
    cases members.lookup (some field.name) with
    | none => exact ih hrest r
    | some d' => exact congrArg ((field.set d' r).bind ·) (funext (ih hrest))

/-- A member that stands first may as well be taken up first. -/
theorem setNamed_cons (hc : fields.Pairwise Slot.Commutes) (hd : (fields.map Slot.name).Nodup)
    {field : Slot ρ} (hm : field ∈ fields) (hn : members.lookup (some field.name) = none) (r : ρ) :
    setNamed ((some field.name, d) :: members) fields r =
      (field.set d r).bind (setNamed members fields) := by
  induction fields generalizing r with
  | nil => cases hm
  | cons f fs ih =>
    obtain ⟨hfirst, hc⟩ := List.pairwise_cons.mp hc
    obtain ⟨hnew, hd⟩ := List.nodup_cons.mp hd
    have hpast : ∀ r', List.lookup (some f.name) members = none →
        setNamed members (f :: fs) r' = setNamed members fs r' := by
      intro r' hr
      rw [setNamed, hr]
    rcases List.mem_cons.mp hm with rfl | hm
    · have hothers : ∀ g ∈ fs, g.name ≠ field.name := fun g hg he =>
        hnew (he ▸ List.mem_map_of_mem hg)
      simp only [setNamed, List.lookup_cons_self, hn]
      exact congrArg _ (funext (setNamed_cons_other hothers))
    · have hne : f.name ≠ field.name := fun he => hnew (he ▸ List.mem_map_of_mem hm)
      simp only [setNamed, lookup_cons_of_ne hne]
      cases hf : members.lookup (some f.name) with
      | none => exact ih hc hd hm r
      | some d' =>
        calc (f.set d' r).bind (setNamed ((some field.name, d) :: members) fs)
            = (f.set d' r).bind fun r' => (field.set d r').bind (setNamed members fs) :=
              congrArg _ (funext (ih hc hd hm))
          _ = ((f.set d' r).bind (field.set d)).bind (setNamed members fs) :=
              (Option.bind_assoc ..).symm
          _ = ((field.set d r).bind (f.set d')).bind (setNamed members fs) := by
              rw [hfirst field hm]
          _ = (field.set d r).bind fun r' => (f.set d' r').bind (setNamed members fs) :=
              Option.bind_assoc ..

/-- **The order of the members does not matter**, nor do members of other names. -/
theorem setMembers_eq_setNamed (hc : fields.Pairwise Slot.Commutes)
    (hd : (fields.map Slot.name).Nodup) (hm : Distinct fields members) {seen : List String}
    (hs : ∀ n ∈ seen, ∀ m ∈ members, m.1 = some n → ∀ field ∈ fields, field.name ≠ n) (r : ρ) :
    setMembers fields seen members r = setNamed members fields r := by
  induction members generalizing seen r with
  | nil =>
    have hnone : ∀ fields : List (Slot ρ), setNamed [] fields r = some r := by
      intro fields
      induction fields with
      | nil => rfl
      | cons field fields ih => exact ih
    exact (hnone fields).symm
  | cons m rest ih =>
    obtain ⟨hname, hnames⟩ := List.forall_mem_cons.mp hm.names
    obtain ⟨honce, hrest⟩ := List.pairwise_cons.mp hm.once
    obtain ⟨name, d⟩ := m
    obtain ⟨n, rfl⟩ : ∃ n, name = some n := Option.ne_none_iff_exists'.mp hname
    have hlater : ∀ n' ∈ seen, ∀ m ∈ rest, m.1 = some n' → ∀ field ∈ fields, field.name ≠ n' :=
      fun n' hn' m hm' => hs n' hn' m (List.mem_cons_of_mem _ hm')
    rw [setMembers]
    cases hf : fields.find? (·.name == n) with
    | none =>
      have hother : ∀ field ∈ fields, field.name ≠ n := by simpa using hf
      exact (ih ⟨hnames, hrest⟩ hlater r).trans (setNamed_cons_other hother r).symm
    | some field =>
      have hfield := List.mem_of_find?_eq_some hf
      obtain rfl : field.name = n := by simpa using List.find?_some hf
      have hunseen : ¬ seen.contains field.name = true := fun hseen =>
        hs field.name (by simpa using hseen) _ (List.mem_cons_self ..) rfl field hfield rfl
      have hgone : rest.lookup (some field.name) = none := by
        rw [List.lookup_eq_none_iff]
        exact fun m hm' => bne_iff_ne.mpr fun he => honce m hm' he field hfield rfl
      simp only [if_neg hunseen]
      rw [setNamed_cons hc hd hfield hgone]
      refine congrArg _ (funext fun r' => ih ⟨hnames, hrest⟩ (fun n' hn' m hm' he => ?_) r')
      rcases List.mem_cons.mp hn' with rfl | hn'
      · exact absurd rfl (honce m hm' he.symm field hfield)
      · exact hlater n' hn' m hm' he

/-- A field has what its member says, or else what it had before. -/
theorem setNamed_of {name : String} {read : Draft → Option α} {put : α → ρ → ρ}
    (hread : Reads members (.of name read put)) (get : ρ → α) (hput : ∀ r, put (get r) r = r)
    (r : ρ) :
    setNamed members (.of name read put :: fields) r =
      setNamed members fields
        (put (((members.lookup (some name)).bind read).getD (get r)) r) := by
  rw [setNamed]
  cases hl : members.lookup (some (Slot.of name read put).name) with
  | none =>
    have hl : members.lookup (some name) = none := hl
    simp only [hl, Option.bind_none, Option.getD_none, hput]
  | some d =>
    have hl : members.lookup (some name) = some d := hl
    obtain ⟨_, ha⟩ := Option.isSome_iff_exists.mp (hread d hl r)
    obtain ⟨a, ha, -⟩ := Option.map_eq_some_iff.mp ha
    simp [hl, Slot.of, ha]

end Draft

end Harvest.Json
