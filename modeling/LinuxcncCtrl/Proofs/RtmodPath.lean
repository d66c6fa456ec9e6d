import LinuxcncCtrl.Spec.RtmodPath

/-! What the resolver of realtime modules returns, and whether the privileged check accepts it. -/

namespace LinuxcncCtrl

open Lib

namespace RtmodBuild

variable {build : RtmodBuild} {files : RtmodFiles} {env : Option (List Char)} {dirs : List (List Char)}
  {name file : List Char} {dir : List Char}

theorem normalize_head {entry : List Char} (h : normalize entry = some dir) : dir.head? = some '/' := by
  cases entry with
  | nil => cases h
  | cons c rest =>
    obtain ⟨-, ⟨⟩⟩ := Option.ite_none_right_eq_some.mp h
    rfl

theorem parseElements {entries acc : List (List Char)} (h : entries.foldlM parseElement acc = .ok dirs) :
    dirs = (entries.filterMap normalize).foldl appendUnique acc := by
  induction entries generalizing acc with
  | nil => exact (Except.ok.inj h).symm
  | cons entry entries ih =>
    rw [List.foldlM_cons] at h
    unfold parseElement at h
    split_ifs at h with hempty
    · cases h
    · split at h
      · cases h
      · next dir hdir =>
        rw [List.filterMap_cons_some hdir, List.foldl_cons]
        exact ih h

theorem parseList_ok {list : List Char} (h : parseList list = .ok dirs) :
    dirs = ((list.splitOn ':').filterMap normalize).eraseDups := by
  unfold parseList at h
  split_ifs at h with hempty
  · rw [parseElements h, foldl_appendUnique]
    simp only [List.not_mem_nil, not_false_eq_true, decide_true, List.filter_true, List.nil_append]

theorem init_ok (h : build.init env = .ok dirs) : dirs = build.searchOrder env ∧
      ∀ dir ∈ dirs, build.trustedDir dir = true ∧ dir.head? = some '/' := by
  unfold init at h
  split at h
  · cases h
  · next parsed hparse =>
    split at h
    · cases h
    · next htrusted =>
      cases h
      have hdirs := parseList_ok hparse
      refine ⟨hdirs, fun dir hdir => ⟨?_, ?_⟩⟩
      · simpa using List.find?_eq_none.mp htrusted dir hdir
      · rw [hdirs, List.mem_eraseDups] at hdir
        obtain ⟨entry, -, hentry⟩ := List.mem_filterMap.mp hdir
        exact normalize_head hentry

theorem search_ok {searched rest : List (List Char)} (h : build.search files searched name rest = .ok file) :
    ∃ before dir after, rest = before ++ dir :: after ∧
      (∀ other ∈ before, files.isRegular (build.candidate other name) = false) ∧
      files.isRegular (build.candidate dir name) = true ∧
      containedFile files dir (build.candidate dir name) = true ∧ file = build.candidate dir name := by
  induction rest with
  | nil => cases h
  | cons dir rest ih =>
    rw [search] at h
    split_ifs at h with hregular hcontained
    · exact ⟨[], dir, rest, rfl, nofun, hregular, hcontained, (Except.ok.inj h).symm⟩
    · obtain ⟨before, found, after, rfl, hbefore, hfound⟩ := ih h
      refine ⟨dir :: before, found, after, rfl, fun other hother => ?_, hfound⟩
      rcases List.mem_cons.mp hother with rfl | hmem
      · exact Bool.eq_false_of_not_eq_true hregular
      · exact hbefore other hmem

theorem containedFile_inside (h : containedFile files dir file = true) :
    ∃ realDir rest, files.realpath dir = some realDir ∧
      files.realpath file = some (realDir ++ '/' :: rest) := by
  unfold containedFile at h
  split at h
  · next realDir realFile hdir hfile =>
    obtain ⟨rest, hrest⟩ := of_decide_eq_true h
    refine ⟨realDir, rest, hdir, ?_⟩
    rw [hfile, ← hrest, List.append_assoc, List.singleton_append]
  · cases h

/-- The first occurrence of an extension is the one at the end of a base name, if it has no other. -/
theorem firstOccurrence_ext_iff {ext : List Char} (hname : name ≠ []) :
    firstOccurrence ext (name ++ ext) = some name.length ↔ ¬ ext <:+: (name ++ ext).dropLast := by
  constructor
  · rintro h ⟨before, after, hinside⟩
    have hpos := List.length_pos_iff.mpr hname
    have hlength := congrArg List.length hinside
    simp only [List.length_append, List.length_dropLast] at hlength
    refine (firstOccurrence_spec h).2 before.length (by omega) ?_
    obtain ⟨last, hlast⟩ := List.dropLast_prefix (name ++ ext)
    rw [← hlast, ← hinside, List.append_assoc, List.append_assoc, List.drop_left]
    exact List.prefix_append _ _
  · intro h
    apply firstOccurrence_eq_some
    · rw [List.drop_left]
    · intro i hi hstarts
      apply h
      have hlength := hstarts.length_le
      have hword : ext <+: ((name ++ ext).dropLast).drop i := by
        rw [List.dropLast_eq_take, List.drop_take]
        refine List.prefix_take_iff.mpr ⟨hstarts, ?_⟩
        rw [List.length_append]
        omega
      exact hword.isInfix.trans (List.drop_suffix i _).isInfix
    · rw [List.length_append]
      exact Nat.le_add_right _ _

/-- An extension with a slash is longer than any base name. -/
theorem isTrustedFile_slash (hext : '/' ∈ build.moduleExt) : build.isTrustedFile files file = none := by
  unfold isTrustedFile
  cases hsplit : splitLast '/' file with
  | none => rfl
  | some parts =>
    obtain ⟨-, hbase⟩ := splitLast_spec hsplit
    have hnone : firstOccurrence build.moduleExt parts.2 = none :=
      firstOccurrence_eq_none_iff.mpr fun hoccurs => hbase (hoccurs.subset hext)
    simp only [hnone]
    split_ifs <;> rfl

/-- Whether the check accepts the file that the resolver has found. -/
theorem isTrustedFile_candidate_iff (hname : nameValid name = true) (htrusted : build.trustedDir dir = true)
    (habsolute : dir.head? = some '/') (hregular : files.isRegular (build.candidate dir name) = true)
    (hcontained : containedFile files dir (build.candidate dir name) = true)
    (hcore : name ≠ "rtapi".toList ∧ name ≠ "hal_lib".toList) :
    build.isTrustedFile files (build.candidate dir name) = some name ↔
      '/' ∉ build.moduleExt ∧ ¬ ['.', '.'] <:+: build.candidate dir name ∧
        ¬ build.moduleExt <:+: (name ++ build.moduleExt).dropLast := by
  by_cases hext : '/' ∈ build.moduleExt
  · simp [isTrustedFile_slash hext, hext]
  obtain ⟨hnonempty, hslash, -⟩ := of_decide_eq_true hname
  have hbase : '/' ∉ name ++ build.moduleExt := by
    rw [List.mem_append, not_or]
    exact ⟨hslash, hext⟩
  have hsplit : splitLast '/' (build.candidate dir name) = some (dir, name ++ build.moduleExt) :=
    splitLast_append hbase
  have hhead : (build.candidate dir name).head? = some '/' := by
    cases dir with
    | nil => rfl
    | cons c rest => exact habsolute
  unfold isTrustedFile
  rw [hsplit]
  dsimp only
  by_cases hdots : ['.', '.'] <:+: build.candidate dir name
  · rw [if_pos (.inr fun hnone => firstOccurrence_eq_none_iff.mp hnone hdots)]
    simp [hdots]
  rw [if_neg (by simp [hhead, firstOccurrence_eq_none_iff.mpr hdots]),
    if_neg (by simp [htrusted, hregular, hcontained])]
  by_cases hfirst : build.moduleExt <:+: (name ++ build.moduleExt).dropLast
  · simp only [hfirst, not_true_eq_false, and_false, iff_false]
    intro h
    split at h
    · cases h
    · next place hplace =>
      split_ifs at h with hend
      -- what is left of the base name is the extension, so this is its last occurrence
      have hlast : place = name.length := by
        rw [List.length_append] at hend
        omega
      exact (firstOccurrence_ext_iff hnonempty).mp (hlast ▸ hplace) hfirst
  · have hpositive : name.length ≠ 0 := fun hzero => hnonempty (List.length_eq_zero_iff.mp hzero)
    rw [(firstOccurrence_ext_iff hnonempty).mpr hfirst]
    dsimp only
    rw [if_neg (by simp [hpositive]), List.take_left, if_neg (by simp [hname]),
      if_neg fun h => h.1.elim hcore.1 hcore.2]
    simp [hext, hdots, hfirst]

/-- A module is found in the first directory of the search order that has it, that directory is trusted, and
the file is inside it. The privileged check then accepts the file under the same name exactly when the path has
no two dots in a row and the extension occurs in the base name at its end only. -/
theorem rtmod_resolved (hinit : build.init env = .ok dirs)
    (hresolve : build.resolve files dirs name false = .ok file) :
    dirs = build.searchOrder env ∧
      (∃ before dir after, dirs = before ++ dir :: after ∧ file = build.candidate dir name ∧
        (∀ other ∈ before, files.isRegular (build.candidate other name) = false) ∧
        files.isRegular file = true ∧ build.trustedDir dir = true ∧
        ∃ realDir rest, files.realpath dir = some realDir ∧
          files.realpath file = some (realDir ++ '/' :: rest)) ∧
      (name ≠ "rtapi".toList ∧ name ≠ "hal_lib".toList →
        (build.isTrustedFile files file = some name ↔
          '/' ∉ build.moduleExt ∧ ¬ ['.', '.'] <:+: file ∧
            ¬ build.moduleExt <:+: (name ++ build.moduleExt).dropLast)) := by
  obtain ⟨hdirs, htrusted⟩ := init_ok hinit
  unfold resolve at hresolve
  split at hresolve
  · cases hresolve
  · next hinvalid =>
    have hname : nameValid name = true := by simpa using hinvalid
    obtain ⟨before, dir, after, hsplit, hbefore, hregular, hcontained, rfl⟩ := search_ok hresolve
    have hmem : dir ∈ dirs := by
      rw [show dirs = _ from hsplit]
      exact List.mem_append_right _ List.mem_cons_self
    obtain ⟨htrust, habsolute⟩ := htrusted dir hmem
    refine ⟨hdirs, ⟨before, dir, after, hsplit, rfl, hbefore, hregular, htrust,
      containedFile_inside hcontained⟩, ?_⟩
    exact isTrustedFile_candidate_iff hname htrust habsolute hregular hcontained

/-- One trusted directory, and a file system in which every path is real. -/
def oneDir : RtmodBuild := ⟨"/rt".toList, [], ".so".toList⟩

def flatFiles (regular : List (List Char)) : RtmodFiles := ⟨fun file => regular.contains file, some⟩

theorem rtmod_resolved_oneDir :
    oneDir.resolve (flatFiles ["/rt/siggen.so".toList]) ["/rt".toList] "siggen".toList false =
        .ok "/rt/siggen.so".toList ∧
      oneDir.isTrustedFile (flatFiles ["/rt/siggen.so".toList]) "/rt/siggen.so".toList =
        some "siggen".toList := by
  have hinit : oneDir.init (some "/rt//:/rt".toList) = .ok ["/rt".toList] := by decide +kernel
  have hresolve : oneDir.resolve (flatFiles ["/rt/siggen.so".toList]) ["/rt".toList] "siggen".toList
      false = .ok "/rt/siggen.so".toList := by decide +kernel
  refine ⟨hresolve, ((rtmod_resolved hinit hresolve).2.2 ?_).mpr ?_⟩
  · decide +kernel
  · decide +kernel

/-- A module whose own name has the extension in it is found and not accepted. -/
theorem rtmod_resolved_refused : oneDir.init none = .ok ["/rt".toList] ∧
      oneDir.resolve (flatFiles ["/rt/filter.so.so".toList]) ["/rt".toList] "filter.so".toList false =
        .ok "/rt/filter.so.so".toList ∧
      oneDir.isTrustedFile (flatFiles ["/rt/filter.so.so".toList]) "/rt/filter.so.so".toList = none :=
  ⟨by decide +kernel, by decide +kernel, by decide +kernel⟩

end RtmodBuild

end LinuxcncCtrl
