import CliAgentOrchestrator.Core.Gate
import CliAgentOrchestrator.Library.Decimal
import CliAgentOrchestrator.Library.Utf8

/-!
# The address of an artifact

`core/gate.py`: a manifest is fed to the hash as a row of records, each a label, a NUL, a value and a
record separator. Nothing is escaped, so the bytes give back the pieces between the separators and no
more: two manifests whose fields divide the same pieces in different ways have one address
(`address_identifies_iff`). Where no value holds a separator of its own there is one way only
(`agree_of_plain`).
-/

set_option autoImplicit false

namespace CliAgentOrchestrator.Gate

open CliAgentOrchestrator.Core Library

/-! ## The bytes that are hashed -/

/-- `f"{binding.name}@{binding.commit}"`. -/
def bindingText (b : RepoBinding) : Text := text b.name ++ 64 :: text b.commit

/-- The fields of an entry as they are joined; nothing stands for none. -/
def entryFields (e : DiffEntry) : List Text :=
  [text (e.prePath.getD ""), text (e.postPath.getD ""), text e.mode, text (e.preObjectId.getD ""),
    text (e.postObjectId.getD ""), if e.deleted then text "1" else text "0"]

def entryText (e : DiffEntry) : Text := [124].intercalate (entryFields e)

/-- What is fed, label by label. -/
def records (m : ArtifactManifest) : List (Text × Text) :=
  [(text "manifest_version", intText m.manifestVersion)]
    ++ m.repoBindings.map (fun b => (text "repo", bindingText b))
    ++ [(text "base", text m.baseSha), (text "head", text m.headSha), (text "branch", text m.branch)]
    ++ m.entries.map (fun e => (text "entry", entryText e))
    ++ [(text "blueprint", text m.blueprintSha), (text "ac_list", text m.acListSha)]

/-- A record in front of its separator. -/
def recordText (r : Text × Text) : Text := r.1 ++ 0 :: r.2

/-- The bytes of all updates of the hash, in order. -/
def fed (m : ArtifactManifest) : List Nat :=
  utf8 (((records m).map recordText).flatMap (· ++ [0x1e]))

/-- SOURCE: core/gate.py:541-586 -/
def computeArtifactSha (sha256 : List Nat → String) (m : ArtifactManifest) : String :=
  sha256 (fed m)

/-- Why a round may not be accepted. -/
inductive AcceptRefusal
  | notYes
  | noSnapshot
  | subjectMismatch
  | reportMismatch

/-- SOURCE: core/gate.py:690-723 -/
def mayAcceptRound (sha256 : List Nat → String) (round : GateRound)
    (declaredSubjectSha declaredReportBytesSha casReportBytesSha : String) :
    Except AcceptRefusal Unit :=
  if round.state ≠ .yes then .error .notYes
  else
    match round.reviewSnapshot with
    | none => .error .noSnapshot
    | some snapshot =>
      if declaredSubjectSha ≠ computeArtifactSha sha256 snapshot then .error .subjectMismatch
      else if declaredReportBytesSha ≠ casReportBytesSha then .error .reportMismatch
      else .ok ()

/-! ## Manifests -/

/-- One artifact. The working tree is no part of it. -/
def SameArtifact (m n : ArtifactManifest) : Prop :=
  m.manifestVersion = n.manifestVersion ∧ m.repoBindings = n.repoBindings ∧ m.baseSha = n.baseSha
    ∧ m.headSha = n.headSha ∧ m.branch = n.branch
    ∧ m.entries.map entryFields = n.entries.map entryFields ∧ m.blueprintSha = n.blueprintSha
    ∧ m.acListSha = n.acListSha

/-- Value by value, the same is fed. -/
def SameValues (m n : ArtifactManifest) : Prop :=
  m.manifestVersion = n.manifestVersion
    ∧ m.repoBindings.map bindingText = n.repoBindings.map bindingText ∧ m.baseSha = n.baseSha
    ∧ m.headSha = n.headSha ∧ m.branch = n.branch
    ∧ m.entries.map entryText = n.entries.map entryText ∧ m.blueprintSha = n.blueprintSha
    ∧ m.acListSha = n.acListSha

/-- The same values are fed, but two bindings are divided at different `@`, or two entries at
different `|`. -/
def DividedWithin (m n : ArtifactManifest) : Prop :=
  SameValues m n ∧ (m.repoBindings ≠ n.repoBindings
    ∨ m.entries.map entryFields ≠ n.entries.map entryFields)

/-- Different values are fed, but with record separators of their own, so that they make up the same
pieces. -/
def DividedAcross (m n : ArtifactManifest) : Prop :=
  ¬SameValues m n ∧ ((records m).map recordText).flatMap (List.splitOn 0x1e)
    = ((records n).map recordText).flatMap (List.splitOn 0x1e)

/-! ## What the bytes give back -/

/-- The values fed under a label. -/
def under (label : Text) (rs : List (Text × Text)) : List Text :=
  rs.filterMap fun r => if r.1 = label then some r.2 else none

theorem under_records (m : ArtifactManifest) :
    under (text "manifest_version") (records m) = [intText m.manifestVersion]
      ∧ under (text "repo") (records m) = m.repoBindings.map bindingText
      ∧ under (text "base") (records m) = [text m.baseSha]
      ∧ under (text "head") (records m) = [text m.headSha]
      ∧ under (text "branch") (records m) = [text m.branch]
      ∧ under (text "entry") (records m) = m.entries.map entryText
      ∧ under (text "blueprint") (records m) = [text m.blueprintSha]
      ∧ under (text "ac_list") (records m) = [text m.acListSha] := by
  refine ⟨?_, ?_, ?_, ?_, ?_, ?_, ?_, ?_⟩ <;>
    simp +decide [under, records, List.filterMap_append, List.filterMap_map]

/-- A value is found under its label. -/
theorem records_eq_iff (m n : ArtifactManifest) : records m = records n ↔ SameValues m n := by
  obtain ⟨hm1, hm2, hm3, hm4, hm5, hm6, hm7, hm8⟩ := under_records m
  obtain ⟨hn1, hn2, hn3, hn4, hn5, hn6, hn7, hn8⟩ := under_records n
  constructor
  · intro h
    rw [h] at hm1 hm2 hm3 hm4 hm5 hm6 hm7 hm8
    refine ⟨?_, hm2.symm.trans hn2, ?_, ?_, ?_, hm6.symm.trans hn6, ?_, ?_⟩
    · exact intText_injective (List.cons.inj (hm1.symm.trans hn1)).1
    · exact text_injective (List.cons.inj (hm3.symm.trans hn3)).1
    · exact text_injective (List.cons.inj (hm4.symm.trans hn4)).1
    · exact text_injective (List.cons.inj (hm5.symm.trans hn5)).1
    · exact text_injective (List.cons.inj (hm7.symm.trans hn7)).1
    · exact text_injective (List.cons.inj (hm8.symm.trans hn8)).1
  · rintro ⟨h1, h2, h3, h4, h5, h6, h7, h8⟩
    have hrepo : m.repoBindings.map (fun b => (text "repo", bindingText b))
        = n.repoBindings.map fun b => (text "repo", bindingText b) :=
      map_eq_of_map_eq (fun _ _ _ _ hvalue => congrArg (text "repo", ·) hvalue) h2
    have hentry : m.entries.map (fun e => (text "entry", entryText e))
        = n.entries.map fun e => (text "entry", entryText e) :=
      map_eq_of_map_eq (fun _ _ _ _ hvalue => congrArg (text "entry", ·) hvalue) h6
    rw [records, records, h1, hrepo, h3, h4, h5, hentry, h7, h8]

theorem fed_eq_iff (m n : ArtifactManifest) :
    fed m = fed n ↔ ((records m).map recordText).flatMap (List.splitOn 0x1e)
      = ((records n).map recordText).flatMap (List.splitOn 0x1e) := by
  rw [← flatMap_stop_eq_iff]
  exact ⟨utf8_injective, fun h => congrArg utf8 h⟩

theorem SameArtifact.sameValues {m n : ArtifactManifest} (h : SameArtifact m n) :
    SameValues m n := by
  obtain ⟨h1, h2, h3, h4, h5, h6, h7, h8⟩ := h
  refine ⟨h1, by rw [h2], h3, h4, h5, ?_, h7, h8⟩
  exact map_eq_of_map_eq (fun _ _ _ _ hfields => congrArg [124].intercalate hfields) h6

/-- One artifact, or two that are told apart by nothing in the bytes. -/
theorem fed_eq_iff_divided (m n : ArtifactManifest) :
    fed m = fed n ↔ SameArtifact m n ∨ DividedWithin m n ∨ DividedAcross m n := by
  rw [fed_eq_iff]
  constructor
  · intro h
    by_cases hvalues : SameValues m n
    · by_cases hsame : m.repoBindings = n.repoBindings
          ∧ m.entries.map entryFields = n.entries.map entryFields
      · obtain ⟨h1, -, h3, h4, h5, -, h7, h8⟩ := hvalues
        exact .inl ⟨h1, hsame.1, h3, h4, h5, hsame.2, h7, h8⟩
      · exact .inr (.inl ⟨hvalues, not_and_or.mp hsame⟩)
    · exact .inr (.inr ⟨hvalues, h⟩)
  · rintro (hsame | ⟨hvalues, -⟩ | ⟨-, hpieces⟩)
    · rw [(records_eq_iff m n).mpr hsame.sameValues]
    · rw [(records_eq_iff m n).mpr hvalues]
    · exact hpieces

theorem not_sameArtifact_of_divided {m n : ArtifactManifest}
    (h : DividedWithin m n ∨ DividedAcross m n) : ¬SameArtifact m n := by
  intro hsame
  obtain ⟨-, hrepo | hentry⟩ | ⟨hvalues, -⟩ := h
  · exact hrepo hsame.2.1
  · exact hentry hsame.2.2.2.2.2.1
  · exact hvalues hsame.sameValues

/-! ## Where nothing can be divided -/

/-- A manifest whose values hold no separator that could be taken for one of the format. -/
structure Plain (m : ArtifactManifest) : Prop where
  names : ∀ b ∈ m.repoBindings, 64 ∉ text b.name
  fields : ∀ e ∈ m.entries, ∀ field ∈ entryFields e, 124 ∉ field
  values : ∀ r ∈ records m, 0x1e ∉ r.2

theorem label_plain {m : ArtifactManifest} {r : Text × Text} (hr : r ∈ records m) :
    0 ∉ r.1 ∧ 0x1e ∉ r.1 := by
  simp only [records, List.mem_append, List.mem_map, List.mem_cons, List.not_mem_nil,
    or_false] at hr
  rcases hr with (((rfl | ⟨b, -, rfl⟩) | rfl | rfl | rfl) | ⟨e, -, rfl⟩) | rfl | rfl
  all_goals
    dsimp only
    decide

/-- Plain manifests are fed alike only if they are one artifact. -/
theorem agree_of_plain {m n : ArtifactManifest} (hm : Plain m) (hn : Plain n)
    (h : fed m = fed n) : SameArtifact m n := by
  -- each record is one piece, and the pieces are what the bytes give back
  have hpieces : ∀ m : ArtifactManifest, Plain m →
      ((records m).map recordText).flatMap (List.splitOn 0x1e) = (records m).map recordText := by
    intro m hm
    rw [List.flatMap_congr (g := fun t => [t]) ?_, List.flatMap_singleton']
    intro t ht
    obtain ⟨r, hr, rfl⟩ := List.mem_map.mp ht
    refine List.splitOn_eq_singleton ?_
    simp [recordText, (label_plain hr).2, hm.values r hr]
  have hrecords : records m = records n := by
    have hmap := (fed_eq_iff m n).mp h
    rw [hpieces m hm, hpieces n hn] at hmap
    have hid := map_eq_of_map_eq (p := id) (fun r hr r' hr' heq => Prod.ext_iff.mpr
      (append_stop_inj (label_plain hr).1 (label_plain hr').1 heq)) hmap
    rwa [List.map_id, List.map_id] at hid
  obtain ⟨h1, hnames, h3, h4, h5, hentries, h7, h8⟩ := (records_eq_iff m n).mp hrecords
  refine ⟨h1, ?_, h3, h4, h5, ?_, h7, h8⟩
  · have hid := map_eq_of_map_eq (p := id) (fun b hb b' hb' heq => ?_) hnames
    · rwa [List.map_id, List.map_id] at hid
    · obtain ⟨hname, hcommit⟩ := append_stop_inj (hm.names b hb) (hn.names b' hb') heq
      cases b
      cases b'
      cases text_injective hname
      cases text_injective hcommit
      rfl
  · exact map_eq_of_map_eq (fun e he e' he' heq => intercalate_inj (hm.fields e he)
      (hn.fields e' he') (List.cons_ne_nil _ _) (List.cons_ne_nil _ _) heq) hentries

/-! ## The address -/

/-- The address identifies the artifact, and binds the acceptance of a round to it, exactly where the
two manifests do not divide one sequence of bytes in two ways. -/
theorem address_identifies_iff (sha256 : List Nat → String) (m n : ArtifactManifest)
    (hsha : sha256 (fed m) = sha256 (fed n) → fed m = fed n) :
    (¬SameArtifact m n → fed m ≠ fed n ∧ computeArtifactSha sha256 m ≠ computeArtifactSha sha256 n
        ∧ ∀ round, round.reviewSnapshot = some m → ∀ declaredReportSha casReportSha,
          mayAcceptRound sha256 round (computeArtifactSha sha256 n) declaredReportSha casReportSha
            ≠ .ok ()) ↔
      ¬DividedWithin m n ∧ ¬DividedAcross m n := by
  rw [← not_or]
  constructor
  · intro h hdivided
    have hsame := not_sameArtifact_of_divided hdivided
    exact (h hsame).1 ((fed_eq_iff_divided m n).mpr (.inr hdivided))
  · intro hundivided hsame
    have hfed : fed m ≠ fed n := by
      intro heq
      obtain h | h := (fed_eq_iff_divided m n).mp heq
      · exact hsame h
      · exact hundivided h
    have haddress : computeArtifactSha sha256 m ≠ computeArtifactSha sha256 n :=
      fun heq => hfed (hsha heq)
    refine ⟨hfed, haddress, fun round hround declaredReportSha casReportSha haccepted => ?_⟩
    unfold mayAcceptRound at haccepted
    rw [hround] at haccepted
    simp only [ne_eq, haddress.symm, not_false_eq_true, if_true] at haccepted
    split_ifs at haccepted

/-- A manifest over one repository. -/
def manifestWith (entries : List DiffEntry) : ArtifactManifest where
  manifestVersion := 1
  repoBindings := [{ name := "root", commit := "c1" }]
  baseSha := "b1"
  headSha := "h1"
  branch := "main"
  worktreePath := "/w"
  entries := entries
  blueprintSha := "p1"
  acListSha := "a1"

def changedFile : DiffEntry :=
  { prePath := some "a.py", postPath := some "a.py", mode := "100644", preObjectId := some "11",
    postObjectId := some "22" }

def deletedFile : DiffEntry :=
  { prePath := some "a.py", mode := "100644", preObjectId := some "11", deleted := true }

/-- The digests of the two manifests. -/
def digestOf (bytes : List Nat) : String :=
  if bytes = fed (manifestWith [changedFile]) then
    "295d64b69697a7b2c06f83a3bace6740a64692993a5fc79738de2388bb55ff4c"
  else "d5fca026afaf5b2c7241c5c26494fd6d4cc82d10db77ebbf49eebc01a49b5d89"

/-- The same path, changed and deleted. -/
theorem address_identifies_changedFile :
    (¬SameArtifact (manifestWith [changedFile]) (manifestWith [deletedFile]) →
      fed (manifestWith [changedFile]) ≠ fed (manifestWith [deletedFile])
        ∧ computeArtifactSha digestOf (manifestWith [changedFile])
          ≠ computeArtifactSha digestOf (manifestWith [deletedFile])
        ∧ ∀ round : GateRound, round.reviewSnapshot = some (manifestWith [changedFile]) →
          ∀ declaredReportSha casReportSha,
            mayAcceptRound digestOf round (computeArtifactSha digestOf (manifestWith [deletedFile]))
              declaredReportSha casReportSha ≠ .ok ()) ↔
      ¬DividedWithin (manifestWith [changedFile]) (manifestWith [deletedFile])
        ∧ ¬DividedAcross (manifestWith [changedFile]) (manifestWith [deletedFile]) :=
  address_identifies_iff digestOf _ _ (by decide +kernel)

/-- A rename of `a` to `b|c` has the address of a rename of `a|b` to `c`. -/
theorem renames_confused :
    ¬∀ m n : ArtifactManifest, ¬SameArtifact m n → fed m ≠ fed n := by
  intro h
  refine h (manifestWith [{ changedFile with prePath := some "a", postPath := some "b|c" }])
    (manifestWith [{ changedFile with prePath := some "a|b", postPath := some "c" }]) ?_
    (by decide +kernel)
  rintro ⟨-, -, -, -, -, hentries, -, -⟩
  exact absurd hentries (by decide +kernel)

end CliAgentOrchestrator.Gate
