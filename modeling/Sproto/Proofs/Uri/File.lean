import Sproto.Proofs.Text.Lines
import Sproto.Proofs.Text.Percent
import Sproto.Workspace

/-! # Paths and the URIs that name them

An absolute path in normal form is one or two slashes and names with a slash between neighbours
(`IsNormalPath`); it is written as it is read (`isNormalPath_iff`).

Its URI holds nothing that the reader of URIs cuts at or drops but the slashes of the path, since all
other such characters are escaped (`Percent.inert_of_mem_encode`).  So the reader finds no authority, no
query and no fragment, and decodes the path (`FileUri.pathOfText_encode`).  What is left is the rule for
drive letters, which takes the first slash of a path off exactly when the third character is a colon
(`rootPath?_fileUri_iff`). -/
namespace Sproto

open Text

/-! ## Normal forms -/

/-- Whether a text can be one of the names that a path goes through. -/
def Path.IsPart (n : Text) : Prop := n ≠ [] ∧ n ≠ ['.'] ∧ '/' ∉ n

instance (n : Text) : Decidable (Path.IsPart n) :=
  inferInstanceAs (Decidable (n ≠ [] ∧ n ≠ ['.'] ∧ '/' ∉ n))

/-- Whether a text is an absolute path in normal form. -/
def IsNormalPath (p : Text) : Prop :=
  ∃ (anchor : Anchor) (names : List Text), anchor ≠ .here ∧ (∀ n ∈ names, Path.IsPart n) ∧
    p = Path.anchorText anchor ++ List.intercalate ['/'] names

namespace Path

variable {anchor : Anchor} {names : List Text}

theorem splitOn_slash (t : Text) : ('/' :: t).splitOn '/' = [] :: t.splitOn '/' := by
  rw [List.splitOn_cons_eq_if_modifyHead, if_pos (beq_self_eq_true _)]

/-- The names of a path are found again between its slashes. -/
theorem filter_splitOn_intercalate (h : ∀ n ∈ names, IsPart n) :
    ((List.intercalate ['/'] names).splitOn '/').filter (fun n => n ≠ [] ∧ n ≠ ['.']) = names := by
  by_cases hnil : names = []
  · rw [hnil]
    rfl
  · rw [List.splitOn_intercalate '/' (fun n hn => (h n hn).2.2) hnil, List.filter_eq_self]
    exact fun n hn => decide_eq_true ⟨(h n hn).1, (h n hn).2.1⟩

/-- No slash stands in front of the names. -/
theorem takeWhile_intercalate (h : ∀ n ∈ names, IsPart n) :
    (List.intercalate ['/'] names).takeWhile (· == '/') = [] := by
  rcases names with _ | ⟨n, names⟩
  · rfl
  · obtain ⟨hne, -, hslash⟩ := h n List.mem_cons_self
    obtain ⟨c, n, rfl⟩ := List.exists_cons_of_ne_nil hne
    have hc : c ≠ '/' := fun heq => hslash (heq ▸ List.mem_cons_self)
    have hhead : ∃ u, List.intercalate ['/'] ((c :: n) :: names) = c :: u := by
      rcases names with _ | ⟨m, names⟩
      · exact ⟨n, List.intercalate_singleton⟩
      · exact ⟨_, List.intercalate_cons_cons⟩
    obtain ⟨u, hu⟩ := hhead
    rw [hu, List.takeWhile_cons, if_neg (by simpa using hc)]

/-- **A path in normal form is read as it was put together.** -/
theorem ofText_normal (hanchor : anchor ≠ .here) (h : ∀ n ∈ names, IsPart n) :
    ofText (anchorText anchor ++ List.intercalate ['/'] names) = ⟨anchor, names⟩ := by
  have hparts := filter_splitOn_intercalate h
  have hslashes := takeWhile_intercalate h
  cases anchor with
  | here => exact absurd rfl hanchor
  | root =>
    show ofText ('/' :: List.intercalate ['/'] names) = _
    rw [ofText, splitOn_slash, List.takeWhile_cons_of_pos (by rfl), hslashes,
      List.filter_cons_of_neg (by simp), hparts]
    rfl
  | doubleRoot =>
    show ofText ('/' :: '/' :: List.intercalate ['/'] names) = _
    rw [ofText, splitOn_slash, splitOn_slash, List.takeWhile_cons_of_pos (by rfl),
      List.takeWhile_cons_of_pos (by rfl), hslashes, List.filter_cons_of_neg (by simp),
      List.filter_cons_of_neg (by simp), hparts]
    rfl

theorem toText_of_isAbsolute {p : Path} (h : p.isAbsolute = true) :
    p.toText = anchorText p.anchor ++ List.intercalate ['/'] p.parts :=
  if_neg fun hhere => of_decide_eq_true h hhere.1

end Path

/-- **A text is an absolute path in normal form exactly when it is read as an absolute path and written
the same again.** -/
theorem isNormalPath_iff {p : Text} :
    IsNormalPath p ↔ (Path.ofText p).isAbsolute = true ∧ (Path.ofText p).toText = p := by
  constructor
  · rintro ⟨anchor, names, hanchor, hnames, rfl⟩
    have habsolute : (⟨anchor, names⟩ : Path).isAbsolute = true := decide_eq_true hanchor
    rw [Path.ofText_normal hanchor hnames]
    exact ⟨habsolute, Path.toText_of_isAbsolute habsolute⟩
  · rintro ⟨habsolute, htext⟩
    refine ⟨(Path.ofText p).anchor, (Path.ofText p).parts, of_decide_eq_true habsolute, ?_, ?_⟩
    · intro n hn
      obtain ⟨hsplit, hkept⟩ := List.mem_filter.mp hn
      obtain ⟨hne, hdot⟩ := of_decide_eq_true hkept
      exact ⟨hne, hdot, not_mem_of_mem_splitOn hsplit⟩
    · rw [← Path.toText_of_isAbsolute habsolute, htext]

theorem IsNormalPath.exists_cons {p : Text} (h : IsNormalPath p) : ∃ t, p = '/' :: t := by
  obtain ⟨anchor, names, hanchor, -, rfl⟩ := h
  cases anchor with
  | here => exact absurd rfl hanchor
  | root => exact ⟨_, rfl⟩
  | doubleRoot => exact ⟨_, rfl⟩

/-! ## What stands in a URI -/

/-- What is written for a text has no character that ends a part of a URI or is dropped from it. -/
theorem Text.Percent.inert_of_mem_encode {t : Text} {c : Char} (h : c ∈ encode t) :
    FileUri.isDropped c = false ∧ c ≠ '#' ∧ c ≠ '?' := by
  have all : ∀ n < 256, ((escape (UInt8.ofNat n)).all fun c =>
      !FileUri.isDropped c && c != '#' && c != '?') = true := by
    decide +kernel
  obtain ⟨b, -, hc⟩ := List.mem_flatMap.mp h
  have hinert := List.all_eq_true.mp (all b.toNat b.toNat_lt_size) c (by rwa [UInt8.ofNat_toNat])
  simpa [and_assoc] using hinert

theorem Text.Percent.encode_slash (t : Text) : encode ('/' :: t) = '/' :: encode t := rfl

namespace FileUri

/-- **The URI of a path is read as the path**, but for the slash before a drive letter. -/
theorem pathOfText_encode {p t : Text} (hp : p = '/' :: t) :
    pathOfText (scheme ++ Percent.encode p) = .ok (Path.ofText (dropDriveSlash p)) := by
  have hinert : ∀ c ∈ Percent.encode p, isDropped c = false ∧ c ≠ '#' ∧ c ≠ '?' :=
    fun c hc => Percent.inert_of_mem_encode hc
  have hfilter : (Percent.encode p).filter (!isDropped ·) = Percent.encode p :=
    List.filter_eq_self.mpr fun c hc => by simp [(hinert c hc).1]
  have hfragment : (Percent.encode p).takeWhile (· != '#') = Percent.encode p :=
    List.takeWhile_eq_self_iff.mpr fun c hc => by simpa using (hinert c hc).2.1
  have hquery : (Percent.encode p).takeWhile (· != '?') = Percent.encode p :=
    List.takeWhile_eq_self_iff.mpr fun c hc => by simpa using (hinert c hc).2.2
  -- the slash of the path ends an empty authority
  have hauthority : (Percent.encode p).takeWhile (!endsAuthority ·) = [] := by
    rw [hp, Percent.encode_slash]
    rfl
  have hbehind : (Percent.encode p).dropWhile (!endsAuthority ·) = Percent.encode p := by
    rw [hp, Percent.encode_slash]
    rfl
  have hscheme : scheme.isPrefixOf? (scheme ++ Percent.encode p) = some (Percent.encode p) :=
    List.isPrefixOf?_eq_some_iff_append_eq.mpr rfl
  simp only [pathOfText, hscheme, path?, hfilter, hauthority, hbehind, hfragment, hquery,
    Authority.fault?_nil, Percent.decode_encode, if_true]

theorem dropDriveSlash_of_ne {p : Text} (h : p[2]? ≠ some ':') : dropDriveSlash p = p := by
  unfold dropDriveSlash
  split
  · exact absurd rfl h
  · rfl

/-- A path without its first slash starts from somewhere else. -/
theorem ofText_drive_ne (c : Char) (t : Text) :
    Path.ofText (c :: ':' :: t) ≠ Path.ofText ('/' :: c :: ':' :: t) := by
  intro h
  have hanchor := congrArg Path.anchor h
  by_cases hc : c = '/'
  · subst hc
    cases hanchor
  · simp [Path.ofText, hc, Path.anchorOf] at hanchor

/-- The rule for drive letters leaves a path alone exactly when its third character is no colon. -/
theorem ofText_dropDriveSlash_eq_iff {p t : Text} (hp : p = '/' :: t) :
    Path.ofText (dropDriveSlash p) = Path.ofText p ↔ p[2]? ≠ some ':' := by
  constructor
  · rintro heq hcolon
    obtain ⟨c, u, rfl⟩ : ∃ c u, p = '/' :: c :: ':' :: u := by
      rw [hp] at hcolon ⊢
      rcases t with _ | ⟨c, _ | ⟨d, u⟩⟩
      · cases hcolon
      · cases hcolon
      · cases hcolon
        exact ⟨c, u, rfl⟩
    exact ofText_drive_ne c u heq
  · intro hcolon
    rw [dropDriveSlash_of_ne hcolon]

end FileUri

theorem Workspace.rootPath?_ofList {t : Text} (h : t ≠ []) :
    rootPath? (.str (String.ofList t)) = (FileUri.pathOfText t).map some := by
  have hne : String.ofList t ≠ "" := fun hempty => h (String.ofList_injective hempty)
  rw [rootPath?, if_neg hne, String.toList_ofList]

/-- **The URI of a path names the path.**  For an absolute path in normal form, the URI is what is listed
for the path, and as the root of a workspace it names the path exactly when the third character of the
path is no colon. -/
theorem rootPath?_fileUri_iff {p : Text} (h : IsNormalPath p) :
    (Path.ofText p).toText = p ∧
    FileUri.ofPath? (Path.ofText p) = some (FileUri.scheme ++ Percent.encode p) ∧
    (Workspace.rootPath? (.str (String.ofList (FileUri.scheme ++ Percent.encode p))) =
        .ok (some (Path.ofText p)) ↔
      p[2]? ≠ some ':') := by
  obtain ⟨habsolute, htext⟩ := isNormalPath_iff.mp h
  obtain ⟨t, hp⟩ := h.exists_cons
  have hread : Workspace.rootPath? (.str (String.ofList (FileUri.scheme ++ Percent.encode p))) =
      .ok (some (Path.ofText (FileUri.dropDriveSlash p))) := by
    have hne : FileUri.scheme ++ Percent.encode p ≠ [] := List.cons_ne_nil _ _
    rw [Workspace.rootPath?_ofList hne, FileUri.pathOfText_encode hp]
    rfl
  refine ⟨htext, ?_, ?_⟩
  · rw [FileUri.ofPath?, if_pos habsolute, htext]
  · rw [hread, Except.ok.injEq, Option.some.injEq]
    exact FileUri.ofText_dropDriveSlash_eq_iff hp

/-- A path with two slashes at its front and names full of signs that mean something in a URI. -/
def signPath : Text := "//a b/%41?#;/[::1]/é\\\t/..".toList

/-- A path that looks as if it began with a drive letter. -/
def drivePath : Text := "/c:/x".toList

/-- The first of the paths above is named by its URI, the second one is not. -/
theorem rootPath?_signPath_drivePath :
    IsNormalPath signPath ∧ IsNormalPath drivePath ∧
    Workspace.rootPath? (.str
        "file:////a%20b/%2541%3F%23%3B/%5B%3A%3A1%5D/%C3%A9%5C%09/..") =
      .ok (some (Path.ofText signPath)) ∧
    Workspace.rootPath? (.str "file:///c%3A/x") ≠ .ok (some (Path.ofText drivePath)) := by
  have hsign : IsNormalPath signPath :=
    ⟨.doubleRoot, ["a b".toList, "%41?#;".toList, "[::1]".toList, "é\\\t".toList, "..".toList],
      by decide, by decide, by decide⟩
  have hdrive : IsNormalPath drivePath :=
    ⟨.root, ["c:".toList, "x".toList], by decide, by decide, by decide⟩
  have hsignUri : String.ofList (FileUri.scheme ++ Percent.encode signPath) =
      "file:////a%20b/%2541%3F%23%3B/%5B%3A%3A1%5D/%C3%A9%5C%09/.." := by decide +kernel
  have hdriveUri : String.ofList (FileUri.scheme ++ Percent.encode drivePath) = "file:///c%3A/x" := by
    decide +kernel
  refine ⟨hsign, hdrive, ?_, ?_⟩
  · rw [← hsignUri]
    exact (rootPath?_fileUri_iff hsign).2.2.mpr (by decide)
  · rw [← hdriveUri]
    exact fun heq => (rootPath?_fileUri_iff hdrive).2.2.mp heq (by decide)

end Sproto
