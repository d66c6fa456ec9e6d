import LinuxcncCtrl.Spec.PreviewUrl

/-! Decoding the target of a preview. It reads no byte outside the target, whatever the target is, and
gives back the two values from any encoding of them. -/

namespace LinuxcncCtrl.PreviewUrl

open Lib StringView

variable {value original text : List UInt8} {index : ℕ} {byte : UInt8}

theorem decodeFrom_end (h : ¬ index < value.length) (decoded : List UInt8) :
    decodeFrom value index decoded = .ok (some decoded) := by
  rw [decodeFrom, if_neg h]
  rfl

theorem decodeFrom_ok (value : List UInt8) (index : ℕ) (decoded : List UInt8) :
    ∃ result, decodeFrom value index decoded = .ok result := by
  induction hrest : value.length - index using Nat.strong_induction_on generalizing index decoded with
  | _ rest ih =>
    by_cases hindex : index < value.length
    · rw [decodeFrom, if_pos hindex, read_eq hindex]
      dsimp only [bind, Except.bind]
      by_cases hsize : value.length ≤ index + 2
      · rw [if_pos hsize]
        split_ifs
        · exact ih _ (by omega) _ _ rfl
        · exact ⟨none, rfl⟩
        · exact ih _ (by omega) _ _ rfl
      · rw [if_neg hsize, read_eq (by omega), read_eq (by omega)]
        dsimp only
        split_ifs
        · exact ih _ (by omega) _ _ rfl
        · exact ⟨none, rfl⟩
        · exact ih _ (by omega) _ _ rfl
        · exact ih _ (by omega) _ _ rfl
    · exact ⟨some decoded, decodeFrom_end hindex decoded⟩

theorem readQuery_ok (query workspace relative : List UInt8) :
    ∃ result, readQuery query workspace relative = .ok result := by
  induction query, workspace, relative using readQuery.induct with
  | case1 query workspace relative hempty =>
    rw [readQuery, if_pos hempty]
    exact ⟨_, rfl⟩
  | case2 query workspace relative hempty ih =>
    rw [readQuery, if_neg hempty]
    obtain ⟨item, hitem⟩ := substr_ok (Nat.zero_le query.length) (find query '&'.toUInt8)
    dsimp only [bind, Except.bind]
    rw [hitem]
    dsimp only
    split
    next => exact ⟨none, rfl⟩
    next equals hequals =>
      obtain ⟨name, hname⟩ := substr_ok (Nat.zero_le item.length) (some equals)
      obtain ⟨text, htext⟩ := substr_ok (Nat.succ_le_of_lt (find_lt hequals)) none
      obtain ⟨decoded, hdecoded⟩ := decodeFrom_ok text 0 []
      rw [hname, htext]
      dsimp only [decodeQueryValue]
      rw [hdecoded]
      cases decoded with
      | none => exact ⟨none, rfl⟩
      | some decoded =>
        dsimp only
        split
        next => exact ⟨_, rfl⟩
        next position hposition =>
          have hcut : removePrefix query (position + 1) = .ok (query.drop (position + 1)) :=
            if_pos (Nat.succ_le_of_lt (find_lt hposition))
          split
          next outside hrest => cases hrest.symm.trans hcut
          next rest hrest => exact ih name decoded position rest hrest

theorem hex_digit : ∀ value < 16, ∀ digit ∈ hexDigits value, hex digit = value := by decide +kernel

theorem byte_of_digits (byte : UInt8) : ((byte.toNat / 16) <<< 4 ||| byte.toNat % 16).toUInt8 = byte := by
  have hlow : byte.toNat % 16 < 2 ^ 4 := Nat.mod_lt _ (by decide)
  have hbyte : (byte.toNat / 16) <<< 4 ||| byte.toNat % 16 = byte.toNat := by
    rw [← Nat.shiftLeft_add_eq_or_of_lt hlow, Nat.shiftLeft_eq]
    omega
  rw [hbyte]
  exact UInt8.ofNat_toNat

theorem decodeFrom_plain (hindex : index < value.length)
    (hread : read value index = .ok byte) (hplus : byte ≠ '+'.toUInt8) (hpercent : byte ≠ '%'.toUInt8)
    (decoded : List UInt8) : decodeFrom value index decoded = decodeFrom value (index + 1) (decoded ++ [byte]) := by
  rw [decodeFrom, if_pos hindex, hread]
  dsimp only [bind, Except.bind]
  rw [if_neg hplus, if_neg hpercent]

theorem decodeFrom_plus (hindex : index < value.length)
    (hread : read value index = .ok '+'.toUInt8) (decoded : List UInt8) :
    decodeFrom value index decoded = decodeFrom value (index + 1) (decoded ++ [' '.toUInt8]) := by
  rw [decodeFrom, if_pos hindex, hread]
  dsimp only [bind, Except.bind]
  rw [if_pos rfl]

theorem decodeFrom_triplet {high low : UInt8}
    (hindex : index + 2 < value.length) (hread : read value index = .ok '%'.toUInt8)
    (hreadHigh : read value (index + 1) = .ok high) (hreadLow : read value (index + 2) = .ok low)
    (hhigh : high ∈ hexDigits (byte.toNat / 16)) (hlow : low ∈ hexDigits (byte.toNat % 16))
    (decoded : List UInt8) :
    decodeFrom value index decoded = decodeFrom value (index + 3) (decoded ++ [byte]) := by
  have hbyte := byte.toNat_lt
  rw [decodeFrom, if_pos (by omega), hread]
  dsimp only [bind, Except.bind]
  rw [if_neg (by decide), if_pos rfl, if_neg (by omega), hreadHigh, hreadLow]
  dsimp only
  rw [hex_digit _ (by omega) high hhigh, hex_digit _ (by omega) low hlow, if_neg (by omega), Int.toNat_natCast,
    Int.toNat_natCast, byte_of_digits]

/-- From the place where the text of some bytes begins, those bytes are added. -/
theorem decodeFrom_encodes (h : PercentEncodes original text) (front decoded : List UInt8) :
    decodeFrom (front ++ text) front.length decoded = .ok (some (decoded ++ original)) := by
  induction h generalizing front decoded with
  | nil =>
    rw [decodeFrom_end (by simp), List.append_nil]
  | @plain byte original text hpercent hplus hampersand hequals _ ih =>
    have hnext := ih (front ++ [byte]) (decoded ++ [byte])
    rw [decodeFrom_plain (by simp) (read_append front byte text) hplus hpercent]
    simpa using hnext
  | @space original text _ ih =>
    have hnext := ih (front ++ ['+'.toUInt8]) (decoded ++ [' '.toUInt8])
    rw [decodeFrom_plus (by simp) (read_append front _ text)]
    simpa using hnext
  | @triplet byte high low original text hhigh hlow _ ih =>
    have hnext := ih (front ++ ['%'.toUInt8, high, low]) (decoded ++ [byte])
    have hreadHigh := read_append (front ++ ['%'.toUInt8]) high (low :: text)
    have hreadLow := read_append (front ++ ['%'.toUInt8, high]) low text
    simp only [List.append_assoc, List.cons_append, List.nil_append, List.length_append, List.length_cons,
      List.length_nil] at hreadHigh hreadLow
    rw [decodeFrom_triplet (by simp) (read_append front _ _) hreadHigh hreadLow hhigh hlow]
    simpa using hnext

theorem decodeQueryValue_encodes (h : PercentEncodes original text) :
    decodeQueryValue text = .ok (some original) := decodeFrom_encodes h [] []

theorem hexDigits_plain : ∀ value < 16, '&'.toUInt8 ∉ hexDigits value := by decide +kernel

theorem PercentEncodes.ampersand (h : PercentEncodes original text) : '&'.toUInt8 ∉ text := by
  induction h with
  | nil => simp
  | plain _ _ hampersand _ _ ih => simp [hampersand.symm, ih]
  | space _ ih =>
    rw [List.mem_cons, not_or]
    exact ⟨by decide, ih⟩
  | @triplet byte high low original text hhigh hlow _ ih =>
    have hbyte := byte.toNat_lt
    simp only [List.mem_cons, not_or]
    refine ⟨by decide, ?_, ?_, ih⟩
    · exact fun heq => hexDigits_plain _ (by omega) (heq ▸ hhigh)
    · exact fun heq => hexDigits_plain _ (by omega) (heq ▸ hlow)

theorem QueryParameter.item_ampersand (parameter : QueryParameter) : '&'.toUInt8 ∉ parameter.item := by
  unfold QueryParameter.item
  rw [List.mem_append, List.mem_cons, not_or, not_or]
  exact ⟨parameter.name_ampersand, by decide, parameter.encoded.ampersand⟩

def assign (pair : List UInt8 × List UInt8) (parameter : QueryParameter) : List UInt8 × List UInt8 :=
  (if parameter.name = workspaceId then parameter.value else pair.1,
    if parameter.name = relativePath then parameter.value else pair.2)

theorem QueryParameter.cuts (parameter : QueryParameter) :
    find parameter.item '='.toUInt8 = some parameter.name.length ∧
      substr parameter.item 0 (some parameter.name.length) = .ok parameter.name ∧
      substr parameter.item (parameter.name.length + 1) none = .ok parameter.text := by
  unfold QueryParameter.item
  refine ⟨find_append_cons parameter.name_equals _, substr_front _ _, ?_⟩
  unfold substr
  rw [if_pos (by simp)]
  simp

theorem QueryParameter.item_ne_nil (parameter : QueryParameter) : parameter.item ≠ [] := by
  unfold QueryParameter.item
  simp

section

variable (parameter : QueryParameter) (pair : List UInt8 × List UInt8)

theorem readQuery_last :
    readQuery parameter.item pair.1 pair.2 =
      .ok (parameterPair (assign pair parameter).1 (assign pair parameter).2) := by
  obtain ⟨hequals, hname, htext⟩ := parameter.cuts
  rw [readQuery, if_neg (by simp [parameter.item_ne_nil])]
  dsimp only [bind, Except.bind]
  rw [find_eq_none parameter.item_ampersand, substr_all]
  dsimp only
  rw [hequals]
  dsimp only
  rw [hname, htext]
  dsimp only
  rw [decodeQueryValue_encodes parameter.encoded]
  rfl

theorem readQuery_next (rest : List UInt8) :
    readQuery (parameter.item ++ '&'.toUInt8 :: rest) pair.1 pair.2 =
      readQuery rest (assign pair parameter).1 (assign pair parameter).2 := by
  obtain ⟨hequals, hname, htext⟩ := parameter.cuts
  have hremove : removePrefix (parameter.item ++ '&'.toUInt8 :: rest) (parameter.item.length + 1) = .ok rest := by
    have hcut := removePrefix_append (parameter.item ++ ['&'.toUInt8]) rest
    simpa using hcut
  rw [readQuery, if_neg (by simp)]
  dsimp only [bind, Except.bind]
  rw [find_append_cons parameter.item_ampersand, substr_front]
  dsimp only
  rw [hequals]
  dsimp only
  rw [hname, htext]
  dsimp only
  rw [decodeQueryValue_encodes parameter.encoded]
  dsimp only
  split
  next outside hrest => cases hrest.symm.trans hremove
  next rest' hrest =>
    obtain rfl := Except.ok.inj (hrest.symm.trans hremove)
    rfl

theorem readQuery_parameters (parameters : List QueryParameter) :
    readQuery (['&'.toUInt8].intercalate ((parameter :: parameters).map QueryParameter.item)) pair.1 pair.2 =
      .ok (parameterPair ((parameter :: parameters).foldl assign pair).1
        ((parameter :: parameters).foldl assign pair).2) := by
  induction parameters generalizing parameter pair with
  | nil =>
    rw [List.map_singleton, List.intercalate_singleton]
    exact readQuery_last parameter pair
  | cons next parameters ih =>
    rw [List.map_cons, List.map_cons, List.intercalate_cons_cons, List.append_assoc, List.singleton_append,
      readQuery_next, ← List.map_cons, ih]
    rfl

end

/-- Each of the two is the last value given for its name. -/
theorem foldl_assign (parameters : List QueryParameter) (pair : List UInt8 × List UInt8) :
    parameters.foldl assign pair =
      ((valuesOf workspaceId parameters).getLast?.getD pair.1,
        (valuesOf relativePath parameters).getLast?.getD pair.2) := by
  induction parameters generalizing pair with
  | nil => rfl
  | cons parameter parameters ih =>
    have hvalues : ∀ name (initial : List UInt8),
        (valuesOf name (parameter :: parameters)).getLast?.getD initial =
          (valuesOf name parameters).getLast?.getD
            (if parameter.name = name then parameter.value else initial) := by
      intro name initial
      unfold valuesOf
      rw [List.filter_cons]
      split_ifs with hname hsame hsame
      · rw [List.map_cons, List.getLast?_cons]
        rfl
      · exact absurd (of_decide_eq_true hname) hsame
      · exact absurd (decide_eq_true hsame) hname
      · rfl
    rw [List.foldl_cons, ih, hvalues, hvalues]
    rfl

/-- Decoding the target of a preview reads no byte outside it. For any two non-empty values, the target that
has each of them once under its name, in any encoding and any order and among any other parameters, gives
the two values. -/
theorem previewParameters_inverts : (∀ target, ∃ parameters, previewParameters target = .ok parameters) ∧
      ∀ (workspace path : List UInt8) (parameters : List QueryParameter), workspace ≠ [] → path ≠ [] →
        valuesOf workspaceId parameters = [workspace] → valuesOf relativePath parameters = [path] →
        previewParameters (previewTarget parameters) = .ok (some (workspace, path)) := by
  refine ⟨fun target => ?_, fun workspace path parameters hworkspace hpath hworkspaces hpaths => ?_⟩
  · unfold previewParameters
    split_ifs with hpath
    · have hlength := (List.isPrefixOf_iff_prefix.mp hpath).length_le
      obtain ⟨query, hquery⟩ := substr_ok hlength none
      rw [hquery]
      exact readQuery_ok query [] []
    · exact ⟨none, rfl⟩
  · have hquery : substr (previewTarget parameters) previewPath.length none =
        .ok (['&'.toUInt8].intercalate (parameters.map QueryParameter.item)) := by
      unfold substr previewTarget
      rw [if_pos (by simp)]
      simp
    have hstart : previewPath.isPrefixOf (previewTarget parameters) = true :=
      List.isPrefixOf_iff_prefix.mpr (List.prefix_append _ _)
    unfold previewParameters
    rw [if_pos hstart, hquery]
    cases parameters with
    | nil => cases hworkspaces
    | cons parameter parameters =>
      refine (readQuery_parameters parameter ([], []) parameters).trans ?_
      rw [foldl_assign, hworkspaces, hpaths]
      simp [parameterPair, hworkspace, hpath]

/-! The path `a/b c`, another parameter, and a workspace of a percent sign and a high byte. -/

def pathParameter : QueryParameter where
  name := relativePath
  value := bytes "a/b c"
  text := bytes "a%2fb+c"
  name_ampersand := by decide +kernel
  name_equals := by decide +kernel
  encoded := by
    refine .plain (by decide) (by decide) (by decide) (by decide) ?_
    refine .triplet (by decide +kernel) (by decide +kernel) ?_
    refine .plain (by decide) (by decide) (by decide) (by decide) ?_
    refine .space ?_
    exact .plain (by decide) (by decide) (by decide) (by decide) .nil

def otherParameter : QueryParameter where
  name := bytes "v"
  value := []
  text := []
  name_ampersand := by decide +kernel
  name_equals := by decide +kernel
  encoded := .nil

def workspaceParameter : QueryParameter where
  name := workspaceId
  value := [37, 255]
  text := bytes "%25%Ff"
  name_ampersand := by decide +kernel
  name_equals := by decide +kernel
  encoded := by
    refine .triplet (by decide +kernel) (by decide +kernel) ?_
    exact .triplet (by decide +kernel) (by decide +kernel) .nil

theorem previewParameters_inverts_mixed :
    previewTarget [pathParameter, otherParameter, workspaceParameter] =
        bytes "/v1/program-preview?relative_path=a%2fb+c&v=&workspace_id=%25%Ff" ∧
      previewParameters (previewTarget [pathParameter, otherParameter, workspaceParameter]) =
        .ok (some ([37, 255], bytes "a/b c")) := by
  refine ⟨by decide +kernel, ?_⟩
  exact previewParameters_inverts.2 _ _ _ (by decide) (by decide +kernel) (by decide +kernel) (by decide +kernel)

end LinuxcncCtrl.PreviewUrl
