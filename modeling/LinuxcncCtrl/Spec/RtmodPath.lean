import LinuxcncCtrl.Lib.CString

/-! The search path for realtime modules: rtmod_path.c (patch 0006). The resolver runs in the user's process,
the check of a file name in the privileged loader. A string is the list of its characters; buffers are taken
to be large enough, and memory never runs out. -/

namespace LinuxcncCtrl

open Lib

/-- What the build sets: `EMC2_RTLIB_DIR`, `EMC2_EXTRA_RTLIB_DIRS` and `MODULE_EXT`. -/
structure RtmodBuild where
  rtlibDir : List Char
  extraDirs : List Char
  moduleExt : List Char

/-- `stat` with `S_ISREG`, and `realpath`. -/
structure RtmodFiles where
  isRegular : List Char → Bool
  realpath : List Char → Option (List Char)

inductive RtmodError
  | emptyPath
  | emptyElement
  | notAbsolute (entry : List Char)
  | unauthorized (dir : List Char)
  | invalidName (name : List Char)
  | escapes (file : List Char)
  | notFound (name : List Char) (dirs : List (List Char))
  deriving DecidableEq

def RtmodError.message : RtmodError → String
  | emptyPath => "HAL_RTMOD_PATH must not be empty"
  | emptyElement => "realtime module path contains an empty element"
  | notAbsolute entry => "realtime module directory must be absolute: " ++ String.ofList entry
  | unauthorized dir => "unauthorized realtime module directory: " ++ String.ofList dir
  | invalidName name => "invalid realtime component name '" ++ String.ofList name ++ "'"
  | escapes file => "realtime module escapes trusted directory: " ++ String.ofList file
  | notFound name dirs =>
    "can't find realtime component '" ++ String.ofList name ++ "'; searched: " ++
      String.ofList (List.intercalate [':'] dirs)

namespace RtmodBuild

/-- `normalize`; `none` for a directory that is not absolute. -/
def normalize : List Char → Option (List Char)
  | [] => none
  | c :: rest => if c = '/' then some ('/' :: rest.rdropWhile (· = '/')) else none

def parseElement (dirs : List (List Char)) (entry : List Char) : Except RtmodError (List (List Char)) :=
  if entry = [] then .error .emptyElement
  else
    match normalize entry with
    | none => .error (.notAbsolute entry)
    | some dir => .ok (appendUnique dirs dir)

/-- `parse_list`, which all callers ask to reject an empty list. -/
def parseList (list : List Char) : Except RtmodError (List (List Char)) :=
  if list = [] then .error .emptyPath else (list.splitOn ':').foldlM parseElement []

variable (build : RtmodBuild)

def combined : List Char :=
  if build.extraDirs = [] then build.rtlibDir else build.rtlibDir ++ ':' :: build.extraDirs

def trustedDir (dir : List Char) : Bool :=
  match parseList build.combined with
  | .error _ => false
  | .ok trusted => trusted.contains dir

/-- `rtmod_path_init`; `none` is a path that is not set. -/
def init (env : Option (List Char)) : Except RtmodError (List (List Char)) :=
  match parseList (env.getD build.rtlibDir) with
  | .error error => .error error
  | .ok dirs =>
    match dirs.find? fun dir => !build.trustedDir dir with
    | some dir => .error (.unauthorized dir)
    | none => .ok dirs

def nameValid (name : List Char) : Bool :=
  name ≠ [] ∧ '/' ∉ name ∧ firstOccurrence ['.', '.'] name = none

def candidate (dir name : List Char) : List Char := dir ++ '/' :: (name ++ build.moduleExt)

def containedFile (files : RtmodFiles) (dir file : List Char) : Bool :=
  match files.realpath dir, files.realpath file with
  | some realDir, some realFile => realDir ++ ['/'] <+: realFile
  | _, _ => false

def search (files : RtmodFiles) (dirs : List (List Char)) (name : List Char) :
    List (List Char) → Except RtmodError (List Char)
  | [] => .error (.notFound name dirs)
  | dir :: rest =>
    if files.isRegular (build.candidate dir name) then
      if containedFile files dir (build.candidate dir name) then .ok (build.candidate dir name)
      else .error (.escapes (build.candidate dir name))
    else search files dirs name rest

/-- `rtmod_path_resolve`; a core module is looked for in `EMC2_RTLIB_DIR` only. -/
def resolve (files : RtmodFiles) (dirs : List (List Char)) (name : List Char) (core : Bool) :
    Except RtmodError (List Char) :=
  if nameValid name = false then .error (.invalidName name)
  else
    let searched := if core then [build.rtlibDir] else dirs
    build.search files searched name searched

/-- `rtmod_path_is_trusted_file`, with the name it reports. -/
def isTrustedFile (files : RtmodFiles) (file : List Char) : Option (List Char) :=
  match splitLast '/' file with
  | none => none
  | some (dir, base) =>
    if file.head? ≠ some '/' ∨ firstOccurrence ['.', '.'] file ≠ none then none
    else if build.trustedDir dir = false ∨ files.isRegular file = false ∨
        containedFile files dir file = false then none
    else
      match firstOccurrence build.moduleExt base with
      | none => none
      | some place =>
        if place + build.moduleExt.length ≠ base.length ∨ place = 0 then none
        else
          let name := base.take place
          if nameValid name = false then none
          else if (name = "rtapi".toList ∨ name = "hal_lib".toList) ∧ dir ≠ build.rtlibDir then none
          else some name

/-- The entries of the path without trailing slashes, each at its first place. -/
def searchOrder (env : Option (List Char)) : List (List Char) :=
  (((env.getD build.rtlibDir).splitOn ':').filterMap normalize).eraseDups

end RtmodBuild

end LinuxcncCtrl
