import Hmdp.Lib.Decimal
import Hmdp.Lib.Path
import Hmdp.Model.Types
import Mathlib.Algebra.Group.Nat.Defs

/-!
# Image uploads

`UploadController`: the names it gives to uploaded images, and the files names stand for. Paths are
those of a POSIX file system without symbolic links. `Paths.get` throws on a character that the
platform has no bytes for and on NUL (`pathChar` is what is left). hutool's `StrUtil` is given by
what it documents of the two methods. Whether a directory is there or can be made, and whether a
path is a directory, is up to the file system.
-/

namespace Hmdp.Model

open Hmdp.Lib

/-- A part of a template without an opening brace or a backslash. -/
def Literal (part : Text) : Prop := Char.ofNat 0x7b ∉ part ∧ '\\' ∉ part

instance : DecidablePred Literal := fun _ => inferInstanceAs (Decidable (_ ∧ _))

/-- hutool's `StrUtil`. -/
structure StrUtil where
  /-- `subAfter(string, ".", true)` -/
  subAfter : Option Text → Option Text
  subAfter_null : subAfter none = none
  subAfter_absent : ∀ s : Text, '.' ∉ s → subAfter (some s) = some []
  subAfter_last : ∀ before after : Text, '.' ∉ after →
    subAfter (some (before ++ '.' :: after)) = some after
  /-- `format(template, params)`; the template is given as its parts between the placeholders -/
  format : List Text → List (Option Text) → Text
  format_nil : ∀ part, Literal part → format [part] [] = part
  format_cons : ∀ part parts param params, Literal part → format (part :: parts) (param :: params) =
    part ++ param.getD ['n', 'u', 'l', 'l'] ++ format parts params

/-! ## `java.util.UUID` -/

/-- `java.util.UUID` -/
structure UUID where
  mostSigBits : BitVec 64
  leastSigBits : BitVec 64

/-- The last `n` hexadecimal digits. -/
def hexDigits (value : ℕ) : ℕ → Text
  | 0 => []
  | n + 1 => hexDigits (value / 16) n ++ [Nat.digitChar (value % 16)]

/-- `UUID.toString`. -/
def UUID.toText (uuid : UUID) : Text :=
  hexDigits (uuid.mostSigBits.toNat / 2 ^ 32) 8 ++ '-' ::
    (hexDigits (uuid.mostSigBits.toNat / 2 ^ 16) 4 ++ '-' ::
      (hexDigits uuid.mostSigBits.toNat 4 ++ '-' ::
        (hexDigits (uuid.leastSigBits.toNat / 2 ^ 48) 4 ++ '-' ::
          hexDigits uuid.leastSigBits.toNat 12)))

/-- `String.hashCode`, of a text in the basic multilingual plane. -/
def hashCode (t : Text) : Int32 := t.foldl (fun h c => 31 * h + Int32.ofNat c.toNat) 0

/-! ## `UploadController` -/

/-- The controller, with what it depends on. -/
structure UploadController where
  strUtil : StrUtil
  pathChar : Char → Bool
  workingDir : List Name
  /-- `SystemConstants.IMAGE_UPLOAD_DIR` -/
  imageUploadDir : Text

namespace UploadController

/-- `Paths.get(IMAGE_UPLOAD_DIR).toAbsolutePath().normalize()`. -/
def uploadRoot (c : UploadController) : List Name :=
  normalize (resolve c.workingDir c.imageUploadDir)

/-- `/imgs/` -/
def imgs : Text := ['/', 'i', 'm', 'g', 's', '/']

/-- `replace('\\', '/')` -/
def slash (c : Char) : Char := if c = '\\' then '/' else c

/-- `relativePath`, after the prefix and the separators before it are taken away. -/
def relativePath (filename : Text) : Text :=
  let relativePath := filename.map slash
  let relativePath := if imgs <+: relativePath then relativePath.drop imgs.length else relativePath
  relativePath.dropWhile fun c => decide (c = '/')

/-- `resolveImageFile`; `none` is the `IllegalArgumentException` and the `InvalidPathException`. -/
def resolveImageFile (c : UploadController) (filename : Text) : Option (List Name) :=
  let relativePath := relativePath filename
  if c.imageUploadDir.all c.pathChar ∧ relativePath.all c.pathChar then
    let target := normalize (resolve c.uploadRoot relativePath)
    if c.uploadRoot <+: target then some target else none
  else none

/-- `createNewFileName`; `ready` says of a directory that it exists or can be made, and `none` is a
throw. -/
def createNewFileName (c : UploadController) (originalFilename : Option Text) (uuid : UUID)
    (ready : List Name → Bool) : Option Text :=
  let suffix := c.strUtil.subAfter originalFilename
  let name := uuid.toText
  let hash := hashCode name
  let d1 := printInt (hash &&& 0xF).toInt
  let d2 := printInt ((hash >>> 4) &&& 0xF).toInt
  let relativeDir :=
    c.strUtil.format [['b', 'l', 'o', 'g', 's', '/'], ['/'], []] [some d1, some d2]
  (c.resolveImageFile relativeDir).bind fun dir =>
    if ready dir then
      some (c.strUtil.format [['/'], ['/'], ['.'], []] [some relativeDir, some name, suffix])
    else none

/-- `uploadImage`, when the file can be written: the answer, and the file. -/
def uploadImage (c : UploadController) (originalFilename : Option Text) (uuid : UUID)
    (ready : List Name → Bool) : Option (Text × List Name) :=
  (c.createNewFileName originalFilename uuid ready).bind fun fileName =>
    (c.resolveImageFile fileName).map fun file => (fileName, file)

/-- `deleteBlogImg`: the file it looks at, and whether it deletes it. -/
def deleteBlogImg (c : UploadController) (isDirectory : List Name → Bool) (filename : Text) :
    Option (List Name × Bool) :=
  (c.resolveImageFile filename).map fun file => (file, !isDirectory file)

end UploadController

end Hmdp.Model
