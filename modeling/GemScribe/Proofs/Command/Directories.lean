import GemScribe.Proofs.Command.Act

/-!
Directories that are made for a file.

A directory is made only where nothing stands, and only on the way to the file. What was a directory before stays
one, so a way that could be gone before can still be gone, to the same place.
-/

namespace GemScribe

namespace Files

variable {files : Files} {made more : List Place} {origin here place : Place} {names : List Text}

/-! ### Ways through directories -/

theorem entryAt_append_of_directory (h : entryAt files made place = .directory) (more : List Place) :
    entryAt files (made ++ more) place = .directory := by
  by_cases hmore : place ∈ more
  · rw [entryAt, if_pos]
    simp [hmore]
  · rw [entryAt] at h ⊢
    simpa [hmore] using h

/-- Where nothing stands after directories have been made, nothing stood before. -/
theorem entryAt_nil_of_absent (h : entryAt files made place = .absent) : entryAt files [] place = .absent := by
  rw [entryAt] at h ⊢
  split at h
  · cases h
  · next hplace =>
    rw [if_neg (by simp_all)]
    exact h

theorem enter_append (rest : List Text) : ∀ (names : List Text) (origin : Place),
    enter files made origin (names ++ rest) =
      enter files made origin names >>= fun here => enter files made here rest
  | [], _ => rfl
  | step :: names, origin => by
      rw [List.cons_append, enter, enter]
      split
      · exact enter_append rest names _
      · cases checkLength longestStep step with
        | error fault => rfl
        | ok u =>
          cases entryAt files made (origin ++ [step]) with
          | directory => exact enter_append rest names (origin ++ [step])
          | file text => rfl
          | absent => rfl

theorem enter_of_enter (more : List Place) : ∀ {names : List Text} {origin : Place},
    enter files made origin names = .ok here → enter files (made ++ more) origin names = .ok here
  | [], _, h => h
  | step :: names, origin, h => by
      rw [enter] at h ⊢
      split
      · next hback =>
        rw [if_pos hback] at h
        exact enter_of_enter more h
      · next hback =>
        rw [if_neg hback] at h
        obtain ⟨u, hlength, h⟩ := bind_eq_ok.mp h
        refine bind_eq_ok.mpr ⟨u, hlength, ?_⟩
        split at h
        · next hentry =>
          rw [entryAt_append_of_directory hentry]
          exact enter_of_enter more h
        · cases h
        · cases h

/-- A directory that is to be made is missing, and is reached once it has been made. -/
theorem missingDirectory?_eq_some (h : missingDirectory? files made origin names = .ok (some place)) :
    entryAt files made place = .absent ∧ enter files (made ++ [place]) origin names = .ok place := by
  rw [missingDirectory?] at h
  split at h
  · cases h
  · next last hlast =>
    obtain ⟨here, hhere, h⟩ := bind_eq_ok.mp h
    split at h
    · cases h
    · next hback =>
      obtain ⟨u, hlength, h⟩ := bind_eq_ok.mp h
      split at h
      · cases h
      · cases h
      · next habsent =>
        obtain ⟨u', -, h⟩ := bind_eq_ok.mp h
        cases h
        refine ⟨habsent, ?_⟩
        have hnew : entryAt files (made ++ [here ++ [last]]) (here ++ [last]) = .directory := by
          rw [entryAt, if_pos]
          simp
        rw [← List.dropLast_append_getLast? last hlast, enter_append, enter_of_enter _ hhere]
        simp [enter, bind, Except.bind, hback, hlength, hnew]

/-- A directory that was missing, on the way that steps lead. -/
structure OnTheWay (files : Files) (origin : Place) (names : List Text) (made : List Place)
    (place : Place) : Prop where
  missing : entryAt files [] place = .absent
  reached : ∃ steps, steps <+: names ∧ enter files made origin steps = .ok place

theorem OnTheWay.mono {names' : List Text} (h : OnTheWay files origin names made place)
    (hnames : names <+: names') (more : List Place) : OnTheWay files origin names' (made ++ more) place := by
  obtain ⟨steps, hsteps, hplace⟩ := h.reached
  exact ⟨h.missing, steps, hsteps.trans hnames, enter_of_enter more hplace⟩

/-- What writing under a path found there: nothing, so that the file is a new one, or a file. -/
theorem newName_eq_ok {path : Text} {name : Option Text} (h : newName files made path = .ok name) :
    ∃ place, follow files made path = .ok (.place place) ∧
      ((entryAt files made place = .absent ∧ name = (fromHome? place).map (Text.join ['/'])) ∨
        ((∃ old, entryAt files made place = .file old) ∧ name = none)) := by
  obtain ⟨u, -, h⟩ := bind_eq_ok.mp h
  obtain ⟨target, htarget, h⟩ := bind_eq_ok.mp h
  cases target with
  | directory => cases h
  | place place =>
    refine ⟨place, htarget, ?_⟩
    cases hentry : entryAt files made place with
    | directory => simp [hentry] at h
    | file old =>
      simp only [hentry] at h
      split at h
      · cases h
      · exact .inr ⟨⟨old, rfl⟩, (Except.ok.inj h).symm⟩
    | absent =>
      simp only [hentry] at h
      obtain ⟨u', -, h⟩ := bind_eq_ok.mp h
      exact .inl ⟨rfl, (Except.ok.inj h).symm⟩

end Files

namespace Act

open Files

variable {files : Files} {made made' : List Place} {origin : Place} {names : List Text}

/-! ### Making directories -/

theorem confined_makeDirectory :
    (makeDirectory files origin names made).Confined Deed.IsPreparation := by
  refine (confined_ofExcept _).bind fun missing _ => ?_
  cases missing with
  | none => exact confined_pure made
  | some place => exact (confined_perform ⟨rfl, rfl⟩).bind fun _ _ => confined_pure _

theorem confined_makeDirectories : ∀ rev : List Text,
    (makeDirectories files origin rev).Confined Deed.IsPreparation
  | [] => confined_pure _
  | last :: before => by
      rw [makeDirectories]
      split
      · exact (confined_makeDirectories before).bind fun _ _ => confined_makeDirectory
      · exact confined_makeDirectory

/-- One directory is made on the way, or none. -/
theorem makeDirectory_eq_ok (h : (makeDirectory files origin names made).outcome = .ok made')
    (hmade : ∀ place ∈ made, OnTheWay files origin names made place) :
    (∀ place ∈ made', OnTheWay files origin names made' place) ∧
      ∃ new, made' = made ++ new ∧
        (makeDirectory files origin names made).deeds = new.map .makeDirectory := by
  rw [makeDirectory] at h ⊢
  cases hmissing : missingDirectory? files made origin names with
  | error fault =>
    rw [hmissing] at h
    cases h
  | ok missing =>
    rw [hmissing, ofExcept_ok_bind] at h
    rw [ofExcept_ok_bind]
    cases missing with
    | none =>
      cases h
      exact ⟨hmade, [], (List.append_nil made).symm, rfl⟩
    | some place =>
      cases h
      obtain ⟨habsent, hplace⟩ := missingDirectory?_eq_some hmissing
      refine ⟨fun other hother => ?_, [place], rfl, rfl⟩
      rcases List.mem_append.mp hother with hother | hother
      · exact (hmade other hother).mono (List.prefix_refl names) [place]
      · rw [List.mem_singleton.mp hother]
        exact ⟨entryAt_nil_of_absent habsent, names, List.prefix_refl names, hplace⟩

/-- The directories that are made were missing, and they are made on the way. -/
theorem makeDirectories_eq_ok : ∀ {rev : List Text} {made : List Place},
    (makeDirectories files origin rev).outcome = .ok made →
      (∀ place ∈ made, OnTheWay files origin rev.reverse made place) ∧
        (makeDirectories files origin rev).deeds = made.map .makeDirectory
  | [], made, h => by
      cases h
      exact ⟨fun _ h => absurd h List.not_mem_nil, rfl⟩
  | last :: before, made, h => by
      rw [List.reverse_cons]
      rw [makeDirectories] at h ⊢
      split at h
      · obtain ⟨first, hfirst, h⟩ := outcome_bind_eq_ok.mp h
        obtain ⟨hway, hdeeds⟩ := makeDirectories_eq_ok hfirst
        have hway' : ∀ place ∈ first, OnTheWay files origin (before.reverse ++ [last]) first place := by
          intro place hplace
          simpa using (hway place hplace).mono (List.prefix_append _ [last]) []
        obtain ⟨hmade, new, rfl, hnew⟩ := makeDirectory_eq_ok h hway'
        refine ⟨hmade, ?_⟩
        rw [bind_of_ok hfirst, hdeeds, hnew, List.map_append]
      · obtain ⟨hmade, new, hnew, hdeeds⟩ := makeDirectory_eq_ok h fun _ h => absurd h List.not_mem_nil
        rw [List.nil_append] at hnew
        subst hnew
        exact ⟨hmade, hdeeds⟩

end Act

end GemScribe
