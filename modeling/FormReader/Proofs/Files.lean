import FormReader.FileTree
import FormReader.Proofs.Octets
import FormReader.Proofs.Outcomes

/-! # Files — what writing a file changes

    A name that can be written leads through folders to its last step, where no
    folder stands (`Route`).  Setting a file there leaves every folder a folder,
    so in any such tree the same name is followed to the same place
    (`follow_past`, by induction on the steps), and reading the name answers
    what was set.

    Whether a name has octets at all is settled by the name alone, before any
    file is looked at (`read_unencodable`, `create_unencodable`).

    `Writes` says so much of two trees: one file is all that has changed, and
    the name leads to it. -/

namespace FormReader

namespace FileTree

variable {t t' : FileTree} {path other : Path} {name : Text}

/-! ## Setting an entry -/

@[simp] theorem working_put (t : FileTree) (path : Path) (e : Entry) :
    (t.put path e).working = t.working := by
  unfold put
  split <;> rfl

theorem lookup_cons_of_ne {place : Path} (h : other ≠ place) (held : Entry)
    (entries : List (Path × Entry)) :
    ((place, held) :: entries).lookup other = entries.lookup other := by
  rw [List.lookup_cons, beq_false_of_ne h]

theorem lookup_set_of_ne (h : other ≠ path) (e : Entry) (entries : List (Path × Entry)) :
    (entries.map fun known => if known.1 = path then (path, e) else known).lookup other
      = entries.lookup other := by
  induction entries with
  | nil => rfl
  | cons known entries ih =>
      obtain ⟨place, held⟩ := known
      rw [List.map_cons]
      by_cases hplace : place = path
      · subst hplace
        rw [if_pos rfl, lookup_cons_of_ne h, lookup_cons_of_ne h, ih]
      · rw [if_neg hplace, List.lookup_cons, List.lookup_cons, ih]

theorem lookup_set_self (e : Entry) {entries : List (Path × Entry)}
    (h : entries.any fun known => known.1 = path) :
    (entries.map fun known => if known.1 = path then (path, e) else known).lookup path
      = some e := by
  induction entries with
  | nil => cases h
  | cons known entries ih =>
      obtain ⟨place, held⟩ := known
      rw [List.map_cons]
      by_cases hplace : place = path
      · rw [if_pos hplace, List.lookup_cons_self]
      · rw [List.any_cons, Bool.or_eq_true] at h
        rw [if_neg hplace, lookup_cons_of_ne (Ne.symm hplace),
          ih (h.resolve_left (by simpa using hplace))]

theorem lookup_put_of_ne (h : other ≠ path) (e : Entry) :
    (t.put path e).entries.lookup other = t.entries.lookup other := by
  unfold put
  split
  · exact lookup_set_of_ne h e t.entries
  · show (t.entries ++ [(path, e)]).lookup other = _
    rw [List.lookup_append, lookup_cons_of_ne h, List.lookup_nil, Option.or_none]

theorem lookup_put_self (t : FileTree) (path : Path) (e : Entry) :
    (t.put path e).entries.lookup path = some e := by
  unfold put
  split
  · exact lookup_set_self e ‹_›
  · rename_i habsent
    have hnone : t.entries.lookup path = none := by
      refine List.lookup_eq_none_iff.mpr fun known hknown => ?_
      refine bne_iff_ne.mpr fun heq => habsent ?_
      exact List.any_eq_true.mpr ⟨known, hknown, decide_eq_true heq.symm⟩
    show (t.entries ++ [(path, e)]).lookup path = some e
    rw [List.lookup_append, hnone, List.lookup_cons_self, Option.none_or]

/-- Off the path nothing changes. -/
theorem find?_put_of_ne (h : other ≠ path) (e : Entry) :
    (t.put path e).find? other = t.find? other := by
  rw [find?, find?, working_put, lookup_put_of_ne h]

/-- On the path the entry is found, unless the working folder is there or below. -/
theorem find?_put_self (h : t.find? path ≠ some .folder) (e : Entry) :
    (t.put path e).find? path = some e := by
  have haround : ¬ path.isPrefixOf t.working := by
    intro haround
    exact h (if_pos haround)
  rw [find?, working_put, if_neg haround, lookup_put_self]

/-! ## Following names -/

theorem components_ne_nil (octets : Octets) : components octets ≠ [] := by
  have honto : ∀ current : Octets, componentsOnto current octets ≠ [] := by
    induction octets with
    | nil => exact fun current => List.cons_ne_nil _ _
    | cons b rest ih =>
        intro current
        rw [componentsOnto]
        split
        · exact List.cons_ne_nil _ _
        · exact ih _
  exact honto []

/-- A name that is resolved has at least one component. -/
theorem steps_ne_nil {origin : Path} {steps : List Octets}
    (h : t.start name = .ok (origin, steps)) : steps ≠ [] := by
  obtain ⟨octets, -, hresolved⟩ := bind_eq_ok_iff.mp h
  split at hresolved
  · cases hresolved
  split at hresolved
  · cases hresolved
  · obtain ⟨-, rfl⟩ := Prod.mk.inj (Except.ok.inj hresolved)
    exact components_ne_nil octets

/-- Where a tree has at least the folders of another, steps to a folder lead to
    it, and whatever comes behind is followed from there. -/
theorem follow_past (hfolders : ∀ p, t.find? p = some .folder → t'.find? p = some .folder)
    {origin goal : Path} {steps : List Octets} (hfollow : t.follow origin steps = .ok goal)
    (hgoal : t.find? goal = some .folder) (rest : List Octets) :
    t'.follow origin (steps ++ rest) = t'.follow goal rest := by
  fun_induction follow t origin steps with
  | case1 origin =>
      obtain rfl := Except.ok.inj hfollow
      rfl
  | case2 origin c steps hstay ih =>
      rw [List.cons_append, follow, if_pos hstay]
      exact ih hfollow
  | case3 origin steps hstay ih =>
      rw [List.cons_append, follow, if_neg hstay, if_pos rfl]
      exact ih hfollow
  | case4 origin c steps hstay hup hlong => cases hfollow
  | case5 origin c steps hstay hup hlong hnone => cases hfollow
  | case6 origin c steps hstay hup hlong hfolder ih =>
      rw [List.cons_append, follow, if_neg hstay, if_neg hup, if_neg hlong, hfolders _ hfolder]
      exact ih hfollow
  | case7 origin c steps hstay hup hlong octets hfile hlast =>
      -- a file is no folder, so the steps cannot end in it
      obtain rfl := Except.ok.inj hfollow
      cases hfile.symm.trans hgoal
  | case8 origin c steps hstay hup hlong octets hfile hmore => cases hfollow

/-- A last step that leads to where no folder stands. -/
structure Route (t : FileTree) (name : Text) (origin : Path) (steps : List Octets) (folder : Path)
    (last : Octets) : Prop where
  starts : t.start name = .ok (origin, steps ++ [last])
  follows : t.follow origin steps = .ok folder
  inside : t.find? folder = some .folder
  /-- The last step is a name of its own. -/
  stays : ¬ (last = [] || last = dot)
  climbs : last ≠ dotDot
  fits : ¬ componentLimit < last.length
  free : t.find? (folder ++ [last]) ≠ some .folder

/-- Steps of which no empty one is taken off end in one that is not empty. -/
theorem kept_steps {steps plain : List Octets}
    (hplain : (steps.reverse.dropWhile List.isEmpty).reverse = plain) (hne : steps ≠ [])
    (hkept : ¬ plain.length < steps.length) :
    plain = steps ∧ ∃ init last, steps = init ++ [last] ∧ last ≠ [] := by
  obtain ⟨init, last, rfl⟩ := (List.eq_nil_or_concat steps).resolve_left hne
  rw [List.concat_eq_append] at *
  rw [List.reverse_append, List.reverse_singleton, List.singleton_append] at hplain
  cases last with
  | nil =>
      have hshort := List.length_dropWhile_le List.isEmpty init.reverse
      rw [List.dropWhile_cons_of_pos rfl] at hplain
      rw [← hplain, List.length_reverse, List.length_append, List.length_singleton] at hkept
      rw [List.length_reverse] at hshort
      omega
  | cons c cs =>
      rw [List.dropWhile_cons_of_neg Bool.false_ne_true, List.reverse_cons,
        List.reverse_reverse] at hplain
      exact ⟨hplain.symm, init, c :: cs, rfl, List.cons_ne_nil c cs⟩

/-- What can be written is led to. -/
theorem route_of_target (h : t.target name = .ok path) :
    ∃ origin steps folder last, t.Route name origin steps folder last
      ∧ path = folder ++ [last] := by
  obtain ⟨⟨origin, steps⟩, hstart, hresolved⟩ := bind_eq_ok_iff.mp h
  dsimp only at hresolved
  generalize hplain : (steps.reverse.dropWhile List.isEmpty).reverse = plain at hresolved
  obtain ⟨folder, hfollow, hlast⟩ := bind_eq_ok_iff.mp hresolved
  split at hlast
  · rename_i hinside
    split at hlast
    · cases hlast
    rename_i hproper
    split at hlast
    · cases hlast
    rename_i hfits
    split at hlast
    · cases hlast
    rename_i hfree
    obtain rfl := Except.ok.inj hlast
    simp only [Bool.or_eq_true, decide_eq_true_eq, not_or] at hproper
    obtain ⟨⟨hkept, hdot⟩, hup⟩ := hproper
    obtain ⟨rfl, init, last, rfl, hne⟩ := kept_steps hplain (steps_ne_nil hstart) hkept
    rw [List.dropLast_concat] at hfollow
    rw [List.getLastD_concat] at *
    have hstays : ¬ (last = [] || last = dot) := by simp [hne, hdot]
    exact ⟨origin, init, folder, last,
      ⟨hstart, hfollow, hinside, hstays, hup, hfits, hfree⟩, rfl⟩
  · cases hlast

/-- The name of a route leads to the file that is set there. -/
theorem Route.content {origin folder : Path} {steps : List Octets} {last : Octets}
    (hroute : t.Route name origin steps folder last)
    (hfolders : ∀ p, t.find? p = some .folder → t'.find? p = some .folder)
    (hworking : t'.working = t.working) {octets : Octets}
    (hfile : t'.find? (folder ++ [last]) = some (.file octets)) :
    t'.content name = .ok octets := by
  have hstart : t'.start name = .ok (origin, steps ++ [last]) := by
    rw [← hroute.starts, start, start, hworking]
  have hfollow : t'.follow origin (steps ++ [last]) = .ok (folder ++ [last]) := by
    rw [follow_past hfolders hroute.follows hroute.inside, follow, if_neg hroute.stays,
      if_neg hroute.climbs, if_neg hroute.fits, hfile]
    rfl
  refine bind_eq_ok_iff.mpr ⟨_, hstart, bind_eq_ok_iff.mpr ⟨_, hfollow, ?_⟩⟩
  rw [hfile]

/-! ## Names without octets -/

section

variable {e : Utf8.EncodeError}

theorem octetsOfName_unencodable :
    octetsOfName name = .error (.unencodable e) ↔ Utf8.encodeName name = .error e := by
  rw [octetsOfName, bind_eq_error_iff, mapError_eq_error_iff]
  constructor
  · rintro (⟨e', hencode, he⟩ | ⟨octets, -, hnull⟩)
    · rw [hencode, OpenFlaw.unencodable.inj he]
    · split at hnull
      · cases hnull
      · cases hnull
  · intro hencode
    exact .inl ⟨e, hencode, rfl⟩

theorem start_unencodable :
    t.start name = .error (.unencodable e) ↔ Utf8.encodeName name = .error e := by
  rw [start, bind_eq_error_iff, octetsOfName_unencodable]
  refine or_iff_left ?_
  rintro ⟨octets, -, hrefused⟩
  split at hrefused
  · cases hrefused
  split at hrefused
  · cases hrefused
  · cases hrefused

/-- What is followed has octets. -/
theorem follow_ne_unencodable (origin : Path) (steps : List Octets) :
    t.follow origin steps ≠ .error (.unencodable e) := by
  intro h
  fun_induction follow t origin steps with
  | case1 origin => cases h
  | case2 origin c steps hstay ih => exact ih h
  | case3 origin steps hstay ih => exact ih h
  | case4 origin c steps hstay hup hlong => cases h
  | case5 origin c steps hstay hup hfits hnone => cases h
  | case6 origin c steps hstay hup hfits hfolder ih => exact ih h
  | case7 origin c steps hstay hup hfits octets hfile hlast => cases h
  | case8 origin c steps hstay hup hfits octets hfile hmore => cases h

theorem content_unencodable :
    t.content name = .error (.unencodable e) ↔ Utf8.encodeName name = .error e := by
  rw [content, bind_eq_error_iff, start_unencodable]
  refine or_iff_left ?_
  rintro ⟨⟨origin, steps⟩, -, h⟩
  rcases bind_eq_error_iff.mp h with hfollow | ⟨path, -, hfound⟩
  · exact follow_ne_unencodable origin steps hfollow
  split at hfound
  · cases hfound
  · cases hfound
  · cases hfound

theorem target_unencodable :
    t.target name = .error (.unencodable e) ↔ Utf8.encodeName name = .error e := by
  rw [target, bind_eq_error_iff, start_unencodable]
  refine or_iff_left ?_
  rintro ⟨⟨origin, steps⟩, -, h⟩
  rcases bind_eq_error_iff.mp h with hfollow | ⟨folder, -, hfound⟩
  · exact follow_ne_unencodable _ _ hfollow
  dsimp only at hfound
  split at hfound
  · split at hfound
    · cases hfound
    split at hfound
    · cases hfound
    split at hfound
    · cases hfound
    · cases hfound
  · cases hfound

/-- An error is told with the name that was asked for. -/
theorem named_eq_error_iff {α : Type} {x : Except OpenFlaw α} {flaw : OpenFlaw} {named : Text} :
    x.mapError (OpenError.mk · name) = .error ⟨flaw, named⟩ ↔ named = name ∧ x = .error flaw := by
  rw [mapError_eq_error_iff]
  constructor
  · rintro ⟨flaw', hx, hsame⟩
    obtain ⟨rfl, rfl⟩ := OpenError.mk.inj hsame
    exact ⟨rfl, hx⟩
  · rintro ⟨rfl, hx⟩
    exact ⟨flaw, hx, rfl⟩

/-- **A NAME WITHOUT OCTETS CANNOT BE READ FROM**, whatever files there are, and no
    other name is refused for that. -/
theorem read_unencodable {named : Text} :
    t.read name = .error ⟨.unencodable e, named⟩ ↔
      named = name ∧ Utf8.encodeName name = .error e := by
  rw [read, named_eq_error_iff, content_unencodable]

/-- **NOR CAN IT BE WRITTEN TO**. -/
theorem create_unencodable {named : Text} :
    t.create name = .error ⟨.unencodable e, named⟩ ↔
      named = name ∧ Utf8.encodeName name = .error e := by
  rw [create, bind_eq_error_iff, named_eq_error_iff, target_unencodable]
  refine or_iff_left ?_
  rintro ⟨path, -, hmade⟩
  cases hmade

end

/-! ## Writing -/

/-- One file is all that has changed in a tree: a name leads to it, and it holds
    given octets.  Files and folders under other paths are as they were. -/
structure Writes (t : FileTree) (name : Text) (octets : Octets) (t' : FileTree) : Prop where
  reads : t'.read name = .ok octets
  working : t'.working = t.working
  others : ∃ path, t'.find? path = some (.file octets) ∧ t.find? path ≠ some .folder ∧
    ∀ other, other ≠ path → t'.find? other = t.find? other

theorem create_ok {opened : FileTree} (h : t.create name = .ok (path, opened)) :
    t.target name = .ok path ∧ opened = t.put path (.file []) := by
  obtain ⟨goal, hgoal, hmade⟩ := bind_eq_ok_iff.mp h
  obtain ⟨rfl, rfl⟩ := Prod.mk.inj (Except.ok.inj hmade)
  exact ⟨mapError_eq_ok_iff.mp hgoal, rfl⟩

/-- **A FILE THAT IS WRITTEN HOLDS WHAT WAS WRITTEN**: where a file is set at the
    path that a name leads to, and nothing else, reading the name answers it. -/
theorem writes_of_target (htarget : t.target name = .ok path)
    (hworking : t'.working = t.working) {octets : Octets}
    (hfile : t'.find? path = some (.file octets))
    (hothers : ∀ other, other ≠ path → t'.find? other = t.find? other) :
    t.Writes name octets t' := by
  obtain ⟨origin, steps, folder, last, hroute, rfl⟩ := route_of_target htarget
  have hfolders : ∀ p, t.find? p = some .folder → t'.find? p = some .folder := by
    intro p hp
    have hne : p ≠ folder ++ [last] := by
      rintro rfl
      exact hroute.free hp
    rw [hothers p hne, hp]
  refine ⟨?_, hworking, _, hfile, hroute.free, hothers⟩
  rw [read, hroute.content hfolders hworking hfile]
  rfl

theorem writes_create {opened : FileTree} (h : t.create name = .ok (path, opened)) :
    t.Writes name [] opened := by
  obtain ⟨htarget, rfl⟩ := create_ok h
  obtain ⟨_, _, _, _, hroute, rfl⟩ := route_of_target htarget
  exact writes_of_target htarget (working_put ..) (find?_put_self hroute.free _)
    fun _ hne => find?_put_of_ne hne _

theorem writes_create_put {opened : FileTree} (h : t.create name = .ok (path, opened))
    (octets : Octets) : t.Writes name octets (opened.put path (.file octets)) := by
  obtain ⟨htarget, rfl⟩ := create_ok h
  obtain ⟨_, _, _, _, hroute, rfl⟩ := route_of_target htarget
  have hopened := find?_put_self hroute.free (.file [])
  refine writes_of_target htarget ?_ (find?_put_self ?_ _) fun other hne => ?_
  · rw [working_put, working_put]
  · rw [hopened]
    intro hfolder
    cases hfolder
  · rw [find?_put_of_ne hne, find?_put_of_ne hne]

end FileTree

end FormReader
