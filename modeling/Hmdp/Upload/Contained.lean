import Hmdp.Model.Upload

/-!
# Uploads stay in the image root

A name that `resolveImageFile` takes is normalized below the upload root, since that is what it
checks last. A new file name has nothing that normalization would take out: its directory is made
of two numbers, `UUID.toString` has neither dots nor separators, and the suffix is what follows the
last dot of the original name, so it has no dot. It may have separators.

* `resolve_created`: the file of a new name.
* `resolve_imgs`: `/imgs` before a name that begins with a separator.
* **`uploads_contained`**: all that, for any file names and UUIDs.
-/

namespace Hmdp.Upload

open Hmdp.Lib Hmdp.Model Hmdp.Model.UploadController

variable {c : UploadController} {filename : Text} {target : List Name}

/-! ## Characters -/

/-- No separator, no backslash and no dot. -/
def Plain (t : Text) : Prop := ∀ ch ∈ t, ch ≠ '/' ∧ ch ≠ '\\' ∧ ch ≠ '.'

theorem Plain.append {s t : Text} (hs : Plain s) (ht : Plain t) : Plain (s ++ t) := by
  intro ch hch
  exact (List.mem_append.mp hch).elim (hs ch) (ht ch)

theorem Plain.cons {ch : Char} {t : Text} (hch : ch ≠ '/' ∧ ch ≠ '\\' ∧ ch ≠ '.')
    (ht : Plain t) : Plain (ch :: t) := by
  intro x hx
  exact (List.mem_cons.mp hx).elim (fun h => h ▸ hch) (ht x)

theorem plain_printInt (i : ℤ) : Plain (printInt i) := by
  intro ch hch
  rcases mem_printInt hch with rfl | hdigit
  · decide
  · refine ⟨?_, ?_, ?_⟩ <;>
    · rintro rfl
      exact absurd hdigit (by decide)

theorem plain_hexDigits (value n : ℕ) : Plain (hexDigits value n) := by
  have hdigit : ∀ d < 16, Nat.digitChar d ≠ '/' ∧ Nat.digitChar d ≠ '\\' ∧
      Nat.digitChar d ≠ '.' := by
    decide
  induction n generalizing value with
  | zero => exact nofun
  | succ n ih => exact (ih (value / 16)).append (.cons (hdigit _ (Nat.mod_lt _ (by omega))) nofun)

theorem plain_uuid (uuid : UUID) : Plain uuid.toText := by
  have hdash : '-' ≠ '/' ∧ '-' ≠ '\\' ∧ '-' ≠ '.' := by decide
  exact (plain_hexDigits _ _).append <| .cons hdash <| (plain_hexDigits _ _).append <|
    .cons hdash <| (plain_hexDigits _ _).append <| .cons hdash <|
      (plain_hexDigits _ _).append <| .cons hdash <| plain_hexDigits _ _

theorem uuid_ne_nil (uuid : UUID) : uuid.toText ≠ [] := by
  simp [UUID.toText]

/-- The suffix has no dot. -/
theorem no_dot_suffix (strUtil : StrUtil) (originalFilename : Option Text) :
    '.' ∉ (strUtil.subAfter originalFilename).getD ['n', 'u', 'l', 'l'] := by
  cases originalFilename with
  | none =>
    rw [strUtil.subAfter_null]
    decide
  | some original =>
    by_cases hdot : '.' ∈ original
    · obtain ⟨after, before, heq, hafter⟩ :=
        List.eq_append_cons_of_mem (List.mem_reverse.mpr hdot)
      have horiginal : original = before.reverse ++ '.' :: after.reverse := by
        have hreverse := congrArg List.reverse heq
        simpa using hreverse
      rw [horiginal, strUtil.subAfter_last _ _ (by simpa using hafter)]
      simpa using hafter
    · rw [strUtil.subAfter_absent _ hdot]
      exact List.not_mem_nil

/-! ## Files -/

theorem head?_relativePath (filename : Text) : (relativePath filename).head? ≠ some '/' := by
  intro h
  have hnot := List.head?_dropWhile_not (fun ch : Char => decide (ch = '/'))
    (if imgs <+: filename.map slash then (filename.map slash).drop imgs.length
    else filename.map slash)
  unfold relativePath at h
  rw [h] at hnot
  simp at hnot

/-- **What `resolveImageFile` returns.** -/
theorem resolveImageFile_eq_some : c.resolveImageFile filename = some target ↔
    (c.imageUploadDir.all c.pathChar ∧ (relativePath filename).all c.pathChar) ∧
      target = normalize (c.uploadRoot ++ names (relativePath filename)) ∧
      c.uploadRoot <+: target := by
  unfold resolveImageFile resolve
  simp only [if_neg (head?_relativePath filename)]
  split
  · rename_i hchars
    split
    · rename_i hprefix
      rw [Option.some.injEq]
      constructor
      · rintro rfl
        exact ⟨hchars, rfl, hprefix⟩
      · exact fun h => h.2.1.symm
    · rename_i hprefix
      refine iff_of_false nofun fun h => hprefix ?_
      rw [← h.2.1]
      exact h.2.2
  · rename_i hchars
    exact iff_of_false nofun fun h => hchars h.1

theorem normal_uploadRoot (c : UploadController) : Normal c.uploadRoot := normal_normalize _

/-! ## New names -/

/-- A new file name: its directory, and the rest. -/
structure Created (uuid : UUID) (d1 d2 suffix fileName : Text) : Prop where
  plain1 : Plain d1 ∧ d1 ≠ []
  plain2 : Plain d2 ∧ d2 ≠ []
  no_dot : '.' ∉ suffix
  eq : fileName = '/' :: (['b', 'l', 'o', 'g', 's'] ++ '/' :: (d1 ++ '/' :: (d2 ++ '/' ::
    (uuid.toText ++ '.' :: suffix))))

theorem printInt_ne_nil (i : ℤ) : printInt i ≠ [] := by
  unfold printInt
  split
  · exact List.cons_ne_nil _ _
  · exact Nat.toDigits_ne_nil

theorem created {originalFilename : Option Text} {uuid : UUID} {ready : List Name → Bool}
    {fileName : Text} (h : c.createNewFileName originalFilename uuid ready = some fileName) :
    ∃ d1 d2 suffix, Created uuid d1 d2 suffix fileName := by
  obtain ⟨dir, -, h⟩ := Option.bind_eq_some_iff.mp h
  split at h
  · cases h
    refine ⟨printInt (hashCode uuid.toText &&& 0xF).toInt,
      printInt ((hashCode uuid.toText >>> 4) &&& 0xF).toInt, _,
      ⟨plain_printInt _, printInt_ne_nil _⟩, ⟨plain_printInt _, printInt_ne_nil _⟩,
      no_dot_suffix c.strUtil originalFilename, ?_⟩
    rw [c.strUtil.format_cons _ _ _ _ (by decide), c.strUtil.format_cons _ _ _ _ (by decide),
      c.strUtil.format_cons _ _ _ _ (by decide), c.strUtil.format_nil _ (by decide),
      c.strUtil.format_cons _ _ _ _ (by decide), c.strUtil.format_cons _ _ _ _ (by decide),
      c.strUtil.format_nil _ (by decide)]
    simp
  · cases h

section

variable {uuid : UUID} {d1 d2 suffix fileName : Text}

theorem map_plain {t : Text} (h : Plain t) : t.map slash = t :=
  (List.map_congr_left fun ch hch => if_neg (h ch hch).2.1).trans (List.map_id t)

theorem no_dot_map (h : '.' ∉ suffix) :
    '.' ∉ suffix.map slash := by
  intro hmem
  obtain ⟨ch, hch, heq⟩ := List.mem_map.mp hmem
  unfold slash at heq
  split at heq
  · cases heq
  · exact h (heq ▸ hch)

/-- The name with slashes alone. -/
theorem map_created (h : Created uuid d1 d2 suffix fileName) :
    (fileName.map slash) =
      '/' :: (['b', 'l', 'o', 'g', 's'] ++ '/' :: (d1 ++ '/' :: (d2 ++ '/' ::
        (uuid.toText ++ '.' :: suffix.map slash)))) := by
  rw [h.eq]
  simp [slash, map_plain h.plain1.1, map_plain h.plain2.1, map_plain (plain_uuid uuid)]

theorem relativePath_created (h : Created uuid d1 d2 suffix fileName) :
    relativePath fileName = ['b', 'l', 'o', 'g', 's'] ++ '/' :: (d1 ++ '/' :: (d2 ++ '/' ::
      (uuid.toText ++ '.' :: suffix.map slash))) := by
  rw [relativePath, map_created h]
  simp [imgs, List.dropWhile]

/-- **`/imgs` before a new name.** -/
theorem relativePath_imgs (h : Created uuid d1 d2 suffix fileName) :
    relativePath (['/', 'i', 'm', 'g', 's'] ++ fileName) = relativePath fileName := by
  rw [relativePath_created h, relativePath, List.map_append, map_created h]
  simp [slash, imgs]

/-- **The names of a new name** are below the root, and none of them is taken out. -/
theorem names_created (h : Created uuid d1 d2 suffix fileName) :
    Normal (names (relativePath fileName)) ∧ names (relativePath fileName) ≠ [] := by
  have hslash : ∀ {t : Text}, Plain t → '/' ∉ t := fun ht hmem => (ht _ hmem).1 rfl
  have hdot : ∀ {t : Text}, Plain t → '.' ∉ t := fun ht hmem => (ht _ hmem).2.2 rfl
  obtain ⟨hplain1, hne1⟩ := h.plain1
  obtain ⟨hplain2, hne2⟩ := h.plain2
  have hstem : '/' ∉ uuid.toText ++ ['.'] := by
    simpa using hslash (plain_uuid uuid)
  obtain ⟨head, tail, hnames, htail⟩ := names_stem hstem (by simp)
    (suffix.map slash)
  have heq : names (relativePath fileName) =
      ['b', 'l', 'o', 'g', 's'] :: d1 :: d2 :: (uuid.toText ++ ['.'] ++ head) :: tail := by
    rw [relativePath_created h, names_append, names_append, names_append,
      names_of_not_mem (by decide) (by decide), names_of_not_mem (hslash hplain1) hne1,
      names_of_not_mem (hslash hplain2) hne2, List.append_cons, hnames]
    rfl
  rw [heq]
  refine ⟨?_, List.cons_ne_nil _ _⟩
  have hfirst : Normal [uuid.toText ++ ['.'] ++ head] := by
    -- it begins with a character of the UUID
    intro name hname
    rw [List.mem_singleton.mp hname]
    cases huuid : uuid.toText with
    | nil => exact absurd huuid (uuid_ne_nil uuid)
    | cons ch chs =>
      have hch : ch ≠ '.' := (plain_uuid uuid ch (huuid ▸ List.mem_cons_self)).2.2
      simp [hch]
  have htail' : Normal tail := normal_of_no_dot fun name hname hmem =>
    no_dot_map h.no_dot (htail name hname '.' hmem)
  have hdirectory : Normal [['b', 'l', 'o', 'g', 's'], d1, d2] := by
    refine normal_of_no_dot fun name hname => ?_
    simp only [List.mem_cons, List.not_mem_nil, or_false] at hname
    rcases hname with rfl | rfl | rfl
    · decide
    · exact hdot hplain1
    · exact hdot hplain2
  exact normal_append.mpr ⟨hdirectory, normal_append.mpr ⟨hfirst, htail'⟩⟩

/-- **The file of a new name.** -/
theorem resolve_created (h : Created uuid d1 d2 suffix fileName)
    (htarget : c.resolveImageFile fileName = some target) :
    target = c.uploadRoot ++ names (relativePath fileName) := by
  obtain ⟨-, rfl, -⟩ := resolveImageFile_eq_some.mp htarget
  rw [normalize_append _ (names_created h).1, normalize_of_normal (normal_uploadRoot c)]

/-- **`/imgs` before a new name** changes nothing. -/
theorem resolve_imgs (h : Created uuid d1 d2 suffix fileName) :
    c.resolveImageFile (['/', 'i', 'm', 'g', 's'] ++ fileName) = c.resolveImageFile fileName := by
  rw [resolveImageFile, relativePath_imgs h]
  rfl

end

/-- **Uploads and deletions.** Any file name is refused or stands for a normal path at or below the
upload root; the new name of any original name and UUID is refused or stands for a path below it;
and that is the file that is written, and that is deleted by the name with or without `/imgs`. -/
theorem uploads_contained (c : UploadController) :
    (∀ filename target, c.resolveImageFile filename = some target →
      Normal target ∧ c.uploadRoot <+: target) ∧
    (∀ originalFilename uuid ready fileName,
      c.createNewFileName originalFilename uuid ready = some fileName →
        ∀ target, c.resolveImageFile fileName = some target →
          c.uploadRoot <+: target ∧ target ≠ c.uploadRoot) ∧
    ∀ originalFilename uuid ready fileName file,
      c.uploadImage originalFilename uuid ready = some (fileName, file) →
        ∀ isDirectory,
          c.deleteBlogImg isDirectory fileName = some (file, !isDirectory file) ∧
          c.deleteBlogImg isDirectory (['/', 'i', 'm', 'g', 's'] ++ fileName) =
            some (file, !isDirectory file) := by
  refine ⟨fun filename target h => ?_, fun originalFilename uuid ready fileName h target htarget =>
    ?_, fun originalFilename uuid ready fileName file h isDirectory => ?_⟩
  · obtain ⟨-, rfl, hprefix⟩ := resolveImageFile_eq_some.mp h
    exact ⟨normal_normalize _, hprefix⟩
  · obtain ⟨d1, d2, suffix, hcreated⟩ := created h
    rw [resolve_created hcreated htarget]
    refine ⟨List.prefix_append _ _, fun hsame => (names_created hcreated).2 ?_⟩
    exact List.append_cancel_left (hsame.trans (List.append_nil _).symm)
  · obtain ⟨newName, hnew, h⟩ := Option.bind_eq_some_iff.mp h
    obtain ⟨target, htarget, h⟩ := Option.map_eq_some_iff.mp h
    cases h
    obtain ⟨d1, d2, suffix, hcreated⟩ := created hnew
    rw [deleteBlogImg, deleteBlogImg, resolve_imgs hcreated, htarget]
    exact ⟨rfl, rfl⟩

/-! ## A server -/

/-- `StrUtil.format`, the template at its places. -/
def fill : List Text → List (Option Text) → Text
  | part :: parts, param :: params => part ++ param.getD ['n', 'u', 'l', 'l'] ++ fill parts params
  | part :: _, [] => part
  | [], _ => []

/-- What follows the last dot. -/
def afterLastDot (t : Text) : Text :=
  if '.' ∈ t then (t.reverse.takeWhile fun ch => decide (ch ≠ '.')).reverse else []

theorem afterLastDot_append (before after : Text) (h : '.' ∉ after) :
    afterLastDot (before ++ '.' :: after) = after := by
  have hall : ∀ ch ∈ after.reverse, decide (ch ≠ '.') = true := by
    intro ch hch
    refine decide_eq_true fun he => h ?_
    exact he ▸ List.mem_reverse.mp hch
  rw [afterLastDot, if_pos (by simp), List.reverse_append, List.reverse_cons, List.append_assoc,
    List.takeWhile_append_of_pos hall]
  simp

/-- The two methods, written out. -/
def strUtil : StrUtil where
  subAfter t := t.map afterLastDot
  subAfter_null := rfl
  subAfter_absent _ h := congrArg some (if_neg h)
  subAfter_last before after h := congrArg some (afterLastDot_append before after h)
  format := fill
  format_nil _ _ := rfl
  format_cons _ _ _ _ _ := rfl

/-- It serves `imgs` in the directory `srv`. -/
def server : UploadController where
  strUtil := strUtil
  pathChar ch := decide (ch ≠ Char.ofNat 0)
  workingDir := [['s', 'r', 'v']]
  imageUploadDir := ['i', 'm', 'g', 's', '/']

example : server.resolveImageFile "/imgs/a\\..\\..\\..\\etc".toList = none ∧
    server.resolveImageFile "/imgs///a/./b/../c/".toList =
      some [['s', 'r', 'v'], ['i', 'm', 'g', 's'], ['a'], ['c']] := by
  decide +kernel

end Hmdp.Upload
