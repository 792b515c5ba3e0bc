import Tariff.Command.Files
import Tariff.Proofs.Text.Utf8

namespace Tariff.Files

variable {f : Files} {place : Place} {bytes : List UInt8}

theorem content?_put (f : Files) (place : Place) (bytes : List UInt8) :
    (f.put place bytes).content? place = some bytes := by
  have hold : (f.files.filter (·.1 != place)).lookup place = none := by
    rw [List.lookup_eq_none_iff]
    intro file hfile
    have hne := (List.mem_filter.1 hfile).2
    rw [bne_iff_ne] at hne
    simpa using Ne.symm hne
  rw [content?, put, List.lookup_append, hold]
  simp

-- Writing a file takes no directory away: a file that is replaced is there afterwards as well.
theorem isDirectory_put {p : Place} (h : f.isDirectory p = true) :
    (f.put place bytes).isDirectory p = true := by
  have hfiles (hbelow : f.files.any (fun file => p.isBelow file.1) = true) :
      (f.put place bytes).files.any (fun file => p.isBelow file.1) = true := by
    obtain ⟨file, hfile, hp⟩ := List.any_eq_true.1 hbelow
    rw [List.any_eq_true]
    by_cases hplace : file.1 = place
    · exact ⟨(place, bytes), by simp [put], hplace ▸ hp⟩
    · exact ⟨file, by simp [put, hfile, hplace], hp⟩
  simp only [isDirectory, Bool.or_eq_true] at h ⊢
  obtain ((hnames | hlisted) | hbelow) | hother := h
  · exact .inl (.inl (.inl hnames))
  · exact .inl (.inl (.inr hlisted))
  · exact .inl (.inr (hfiles hbelow))
  · exact .inr hother

theorem requireDirectory_eq_ok {p : Place} :
    f.requireDirectory p = .ok () ↔ f.isDirectory p = true := by
  unfold requireDirectory
  cases f.isDirectory p <;> cases (f.content? p).isSome <;> simp

theorem enter_eq_ok {p next : Place} {name : String} :
    f.enter p name = .ok next ↔
      f.isDirectory p = true ∧ requireName name = .ok () ∧ p.step name = next := by
  rw [← requireDirectory_eq_ok]
  unfold enter
  cases f.requireDirectory p <;> cases requireName name <;>
    simp [bind, Except.bind, pure, Except.pure]

theorem walk_append (f : Files) (start : Place) (way more : List String) :
    f.walk start (way ++ more) = f.walk start way >>= fun p => f.walk p more :=
  List.foldlM_append

theorem walk_put {start stop : Place} {steps : List String} (h : f.walk start steps = .ok stop) :
    (f.put place bytes).walk start steps = .ok stop := by
  induction steps generalizing start with
  | nil => exact h
  | cons name steps ih =>
    rw [walk, List.foldlM_cons] at h ⊢
    cases hnext : f.enter start name with
    | error e =>
      rw [hnext] at h
      cases h
    | ok next =>
      rw [hnext] at h
      obtain ⟨hdirectory, hname, hstep⟩ := enter_eq_ok.1 hnext
      rw [enter_eq_ok.2 ⟨isDirectory_put hdirectory, hname, hstep⟩]
      exact ih h

-- Without a slash at the end, the last step is the name of the file.
theorem eq_append_of_dropWhile {steps way : List String} {last : String}
    (h : steps.reverse.dropWhile (·.isEmpty) = last :: way)
    (hlength : ¬ way.length + 1 < steps.length) : steps = way.reverse ++ [last] := by
  have hparts := List.takeWhile_append_dropWhile (p := (·.isEmpty)) (l := steps.reverse)
  have hlengths := congrArg List.length hparts
  rw [h, List.length_append, List.length_cons, List.length_reverse] at hlengths
  have hnone : steps.reverse.takeWhile (·.isEmpty) = [] := List.length_eq_zero_iff.1 (by omega)
  rw [hnone, h, List.nil_append] at hparts
  simpa using congrArg List.reverse hparts.symm

-- What it takes to write a file: a way to a directory, and a name for the file in it.
theorem target_eq_ok {path : String} (h : f.target path = .ok place) :
    requirePath path = .ok () ∧ ∃ way last directory, Place.stepsOf path = way ++ [last] ∧
      f.walk (.startOf path) way = .ok directory ∧ f.enter directory last = .ok place := by
  unfold target at h
  cases hpath : requirePath path with
  | error e =>
    rw [hpath] at h
    cases h
  | ok =>
    rw [hpath] at h
    refine ⟨rfl, ?_⟩
    simp only [bind, Except.bind] at h
    split at h
    · cases h
    rename_i last way hsteps
    split at h
    · cases hwalk : f.walk (Place.startOf path) (Place.stepsOf path) <;>
        simp only [hwalk] at h <;> cases h
    cases hwalk : f.walk (Place.startOf path) way.reverse with
    | error e =>
      simp only [hwalk] at h
      cases h
    | ok directory =>
      cases hdirectory : f.requireDirectory directory with
      | error e =>
        simp only [hwalk, hdirectory] at h
        cases h
      | ok =>
        simp only [hwalk, hdirectory] at h
        split at h
        · cases h
        · rename_i hlength
          cases hname : requireName last with
          | error e =>
            simp only [hname] at h
            cases h
          | ok =>
            simp only [hname] at h
            split at h
            · cases h
            · cases h
              exact ⟨way.reverse, last, directory, eq_append_of_dropWhile hsteps hlength, hwalk,
                enter_eq_ok.2 ⟨requireDirectory_eq_ok.1 hdirectory, hname, rfl⟩⟩

theorem readBytes_put {path : String} (h : f.target path = .ok place) (bytes : List UInt8) :
    (f.put place bytes).readBytes path = .ok bytes := by
  obtain ⟨hpath, way, last, directory, hsteps, hwalk, henter⟩ := target_eq_ok h
  have hreached : (f.put place bytes).walk (.startOf path) (Place.stepsOf path) = .ok place := by
    apply walk_put
    rw [hsteps, walk_append, hwalk]
    exact (bind_pure (f.enter directory last)).trans henter
  unfold readBytes
  rw [hpath]
  simp only [bind, Except.bind, hreached, content?_put]
  rfl

theorem readText_of_writeText {after : Files} {path text : String}
    (h : f.writeText path text = .ok after) : after.readText path = .ok text := by
  unfold writeText at h
  cases htarget : f.target path with
  | error e =>
    rw [htarget] at h
    cases h
  | ok place =>
    rw [htarget] at h
    cases h
    unfold readText
    rw [readBytes_put htarget]
    simp only [bind, Except.bind, Text.Utf8.decode?_encode]

end Tariff.Files
