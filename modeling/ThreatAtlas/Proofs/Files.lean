import ThreatAtlas.Proofs.Job
import ThreatAtlas.Proofs.Json.Pieces

/-!
# Reading and writing files

What a job reads is up to the files alone, and what it writes is one file. A job that fails to read or
to write has changed nothing, but for a document that breaks off.
-/

namespace ThreatAtlas

theorem Text.Utf8.readAll_error {bytes : List Nat} {offset : Nat} {e : Failure}
    (h : readAll (fun u => Except.error (.undecodable u)) offset bytes = Except.error e) :
    ∃ u, e = .undecodable u := by
  fun_induction readAll (fun u => Except.error (Failure.undecodable u)) offset bytes with
  | case1 => cases h
  | case2 offset lead rest c w _ ih =>
    cases hrest : readAll (fun u => Except.error (Failure.undecodable u)) (offset + w) (rest.drop (w - 1)) with
    | ok cs =>
      rw [hrest] at h
      cases h
    | error e' =>
      rw [hrest] at h
      cases h
      exact ih hrest
  | case3 offset lead rest reason w _ ih =>
    cases h
    exact ⟨_, rfl⟩

theorem Content.decode_error {content : Content} {e : Failure} (h : content.decode = .error e) :
    ∃ u, e = .undecodable u := by
  cases content with
  | text s => cases h
  | bytes b => exact Text.Utf8.readAll_error h

namespace Files

/-- The file of this path holds a document of the value `v`. -/
def Holds (files : Files) (path : String) (v : Value) : Prop :=
  ∃ content cs, files.place path = .file content ∧ content.decode = .ok cs ∧
    Json.read (String.ofList (Text.unifyLineEnds cs)) = .ok v

variable {v : Value} {path other : String} {files : Files} {content : Content}

theorem Holds.unique {v' : Value} (h : files.Holds path v) (h' : files.Holds path v') : v = v' := by
  obtain ⟨content, cs, hplace, hdecode, hread⟩ := h
  obtain ⟨content', cs', hplace', hdecode', hread'⟩ := h'
  rw [hplace, Place.file.injEq] at hplace'
  subst hplace'
  rw [hdecode, Except.ok.injEq] at hdecode'
  subst hdecode'
  rwa [hread, Except.ok.injEq] at hread'

/-- The value that the file of this path holds, where no file counts as an empty list. -/
def Lists (files : Files) (path : String) (v : Value) : Prop :=
  if files.has path then files.Holds path v else v = .list []

def Garbled (files : Files) (path : String) : Prop :=
  ∃ content cs fault message, files.place path = .file content ∧ content.decode = .ok cs ∧
    Json.read (String.ofList (Text.unifyLineEnds cs)) = .error fault ∧
    fault.toFailure (String.ofList (Text.unifyLineEnds cs)) = .notJson message

theorem Lists.unique {v' : Value} (h : files.Lists path v) (h' : files.Lists path v') : v = v' := by
  unfold Lists at h h'
  split at h
  case isTrue hfile =>
    rw [if_pos hfile] at h'
    exact h.unique h'
  case isFalse hnone =>
    rw [if_neg hnone] at h'
    rw [h, h']

theorem Lists.of_place {files' : Files} (h : files.Lists path v) (hhas : files'.has path = files.has path)
    (hplace : ∀ content, files.place path = .file content → files'.place path = .file content) :
    files'.Lists path v := by
  unfold Lists at h ⊢
  rw [hhas]
  split at h
  case isTrue hfile =>
    rw [if_pos hfile]
    obtain ⟨content, cs, hcontent, hread⟩ := h
    exact ⟨content, cs, hplace content hcontent, hread⟩
  case isFalse hnone =>
    rwa [if_neg hnone]

theorem free_of_place (h : files.place path ≠ .blocked) : ∀ p ∈ parents path, files.get? p = none := by
  intro p hp
  by_contra hfile
  refine h (if_pos ?_)
  exact List.any_eq_true.mpr ⟨p, hp, Option.isSome_iff_ne_none.mpr hfile⟩

theorem place_ne_blocked (h : ∀ p ∈ parents path, files.get? p = none) : files.place path ≠ .blocked := by
  intro hblocked
  unfold place at hblocked
  split at hblocked
  case isTrue hfile =>
    obtain ⟨p, hp, hsome⟩ := List.any_eq_true.mp hfile
    rw [h p hp] at hsome
    cases hsome
  case isFalse =>
    split at hblocked
    · cases hblocked
    · split at hblocked <;> cases hblocked

theorem place_eq_file_iff : files.place path = .file content ↔
      (∀ p ∈ parents path, files.get? p = none) ∧ files.get? path = some content := by
  constructor
  · intro h
    refine ⟨free_of_place (by rw [h]; exact nofun), ?_⟩
    unfold place at h
    split at h
    · cases h
    · split at h
      case h_1 c hc =>
        cases h
        exact hc
      case h_2 => split at h <;> cases h
  · intro h
    obtain ⟨hfree, hget⟩ := h
    unfold place
    rw [if_neg, hget]
    intro hblocked
    obtain ⟨p, hp, hfile⟩ := List.any_eq_true.mp hblocked
    rw [hfree p hp] at hfile
    cases hfile

theorem get?_put (files : Files) (path other : String) (content : Content) :
    (files.put path content).get? other = if other = path then some content else files.get? other := by
  unfold get? put
  induction files.entries with
  | nil =>
    by_cases h : other = path
    · simp [put.go, h]
    · simp [put.go, h]
  | cons entry rest ih =>
    obtain ⟨p, c⟩ := entry
    dsimp only at ih ⊢
    rw [put.go]
    by_cases hp : p = path
    · rw [if_pos (beq_iff_eq.mpr hp)]
      subst hp
      by_cases h : other = p
      · simp [h]
      · simp [List.lookup_cons, h, beq_false_of_ne h]
    · rw [if_neg (by simpa using hp), List.lookup_cons, List.lookup_cons, ih]
      by_cases hother : other = p
      · subst hother
        simp [hp]
      · simp [beq_false_of_ne hother]

theorem place_put_self (content : Content) (hfree : ∀ p ∈ parents path, files.get? p = none)
    (hself : path ∉ parents path) : (files.put path content).place path = .file content := by
  rw [place_eq_file_iff]
  constructor
  · intro p hp
    have hne : p ≠ path := by
      rintro rfl
      exact hself hp
    rw [get?_put, if_neg hne]
    exact hfree p hp
  · rw [get?_put, if_pos rfl]

theorem place_put_of_ne (new : Content) (h : files.place other = .file content) (hne : other ≠ path)
    (hbelow : path ∉ parents other) : (files.put path new).place other = .file content := by
  rw [place_eq_file_iff] at h ⊢
  constructor
  · intro p hp
    have hother : p ≠ path := by
      rintro rfl
      exact hbelow hp
    rw [get?_put, if_neg hother]
    exact h.1 p hp
  · rw [get?_put, if_neg hne]
    exact h.2

theorem any_entries_put (files : Files) (path : String) (content : Content) (q : String → Bool) :
    ((files.put path content).entries.any fun entry => q entry.1) =
      ((files.entries.any fun entry => q entry.1) || q path) := by
  unfold put
  dsimp only
  induction files.entries with
  | nil => simp [put.go]
  | cons entry rest ih =>
    obtain ⟨p, c⟩ := entry
    rw [put.go]
    by_cases hp : p = path
    · subst hp
      simp only [beq_self_eq_true, if_true, List.any_cons]
      cases q p <;> simp
    · rw [if_neg (by simpa using hp), List.any_cons, List.any_cons, ih, Bool.or_assoc]

theorem has_put (files : Files) (path other : String) (content : Content) :
    (files.put path content).has other =
      (files.has other || other == path || (parents path).contains other) := by
  unfold has isDirectory
  rw [get?_put, any_entries_put files path content fun p => (parents p).contains other]
  by_cases hother : other = path
  · simp [hother]
  · rw [if_neg hother, beq_false_of_ne hother]
    simp only [put, Bool.or_false, Bool.or_assoc]

theorem Lists.put (h : files.Lists other v) (content : Content) (hother : other ∉ path :: parents path)
    (hbelow : path ∉ parents other) : (files.put path content).Lists other v := by
  rw [List.mem_cons, not_or] at hother
  refine h.of_place ?_ fun old hold => place_put_of_ne content hold hother.1 hbelow
  rw [has_put, beq_false_of_ne hother.1, Bool.or_false, List.contains_eq_mem,
    decide_eq_false hother.2, Bool.or_false]

theorem has_makeDirectory (files : Files) (hother : other ∉ path :: parents path) :
    (files.makeDirectory path).has other = files.has other := by
  have hcontains : (files.makeDirectory path).directories.contains other =
      files.directories.contains other := by
    rw [Bool.eq_iff_iff, List.contains_iff_mem, List.contains_iff_mem, makeDirectory, List.mem_append]
    constructor
    · rintro (hold | hnew)
      · exact hold
      · exact absurd (List.mem_of_mem_filter hnew) hother
    · exact Or.inl
  unfold has isDirectory
  rw [hcontains]
  rfl

theorem has_makeDirectory_self (files : Files) (path : String) :
    (files.makeDirectory path).has path = true := by
  have hmem : path ∈ (files.makeDirectory path).directories := by
    by_cases hold : path ∈ files.directories
    · exact List.mem_append_left _ hold
    · exact List.mem_append_right _ (List.mem_filter.mpr ⟨List.mem_cons_self, by simpa using hold⟩)
  rw [has, isDirectory, List.contains_eq_mem, decide_eq_true hmem]
  simp

theorem place_makeDirectory (h : files.place other = .file content) (path : String) :
    (files.makeDirectory path).place other = .file content := by
  rw [place_eq_file_iff] at h ⊢
  exact h

theorem Lists.makeDirectory (h : files.Lists other v) (hother : other ∉ path :: parents path) :
    (files.makeDirectory path).Lists other v :=
  h.of_place (has_makeDirectory files hother) fun _ hcontent => place_makeDirectory hcontent path

theorem has_of_place (h : files.place path = .file content) : files.has path = true := by
  rw [has, (place_eq_file_iff.mp h).2]
  rfl

theorem place_of_has_eq_false (h : files.has path = false) :
    files.place path = .nothing ∨ files.place path = .blocked := by
  obtain ⟨hfile, hdirectory⟩ := Bool.or_eq_false_iff.mp h
  unfold place
  rw [Option.isSome_eq_false_iff, Option.isNone_iff_eq_none] at hfile
  rw [hfile, hdirectory]
  split
  · exact .inr rfl
  · exact .inl rfl

theorem lists_of_text {text : String} (hplace : files.place path = .file (.text text))
    (hread : Json.read (String.ofList (Text.unifyLineEnds text.toList)) = .ok v) : files.Lists path v := by
  rw [Lists, if_pos (has_of_place hplace)]
  exact ⟨.text text, text.toList, hplace, rfl, hread⟩

def Alike (files files' : Files) : Prop :=
  ∀ path, (files.get? path).isSome = (files'.get? path).isSome ∧
    files.isDirectory path = files'.isDirectory path

theorem isDirectory_put (files : Files) (path other : String) (content : Content) :
    (files.put path content).isDirectory other =
      (files.isDirectory other || (parents path).contains other) := by
  unfold isDirectory
  rw [any_entries_put files path content fun p => (parents p).contains other]
  simp only [put, Bool.or_assoc]

theorem alike_put_of_place {old : Content} (h : files.place path = .file old) (content : Content) :
    Alike files (files.put path content) := by
  have hget := (place_eq_file_iff.mp h).2
  intro other
  constructor
  · rw [get?_put]
    split
    case isTrue hsame => rw [hsame, hget]; rfl
    case isFalse => rfl
  · rw [isDirectory_put]
    cases habove : (parents path).contains other with
    | false => rw [Bool.or_false]
    | true =>
      have hentry : (path, old) ∈ files.entries := by
        obtain ⟨before, after, hsplit, -⟩ := List.lookup_eq_some_iff.mp hget
        simp [hsplit]
      have : (files.entries.any fun entry => (parents entry.1).contains other) = true :=
        List.any_eq_true.mpr ⟨_, hentry, habove⟩
      unfold isDirectory
      rw [this]
      simp

variable {files files' : Files}

theorem Alike.put (h : Alike files files') (path : String) (content content' : Content) :
    Alike (files.put path content) (files'.put path content') := by
  intro other
  rw [get?_put, get?_put, isDirectory_put, isDirectory_put, (h other).2]
  refine ⟨?_, rfl⟩
  split
  · rfl
  · exact (h other).1

theorem isDirectory_makeDirectory (files : Files) (path other : String) :
    (files.makeDirectory path).isDirectory other =
      (files.isDirectory other || (path :: parents path).contains other) := by
  have hcontains : (files.makeDirectory path).directories.contains other =
      (files.directories.contains other || (path :: parents path).contains other) := by
    rw [Bool.eq_iff_iff, Bool.or_eq_true, List.contains_iff_mem, List.contains_iff_mem,
      List.contains_iff_mem, makeDirectory, List.mem_append, List.mem_filter]
    by_cases hold : other ∈ files.directories <;> simp [hold]
  unfold isDirectory
  rw [hcontains]
  simp only [makeDirectory]
  cases other == "" <;> cases files.directories.contains other <;>
    cases (path :: parents path).contains other <;> simp

theorem place_makeDirectory_of_notMem (files : Files) (hother : other ∉ path :: parents path) :
    (files.makeDirectory path).place other = files.place other := by
  have hnot : (path :: parents path).contains other = false := by simpa using hother
  unfold place
  rw [isDirectory_makeDirectory, hnot, Bool.or_false]
  rfl

theorem Alike.makeDirectory (h : Alike files files') (path : String) :
    Alike (files.makeDirectory path) (files'.makeDirectory path) := by
  intro other
  rw [isDirectory_makeDirectory, isDirectory_makeDirectory, (h other).2]
  exact ⟨(h other).1, rfl⟩

theorem Alike.place (h : Alike files files') (path : String) :
    (∃ content content', files.place path = .file content ∧ files'.place path = .file content') ∨
      files.place path = files'.place path := by
  unfold Files.place
  simp only [(h _).1, (h path).2]
  split
  · exact .inr rfl
  · have hsome := (h path).1
    cases hget : files.get? path <;> cases hget' : files'.get? path <;> rw [hget, hget'] at hsome
    · exact .inr rfl
    · cases hsome
    · cases hsome
    · exact .inl ⟨_, _, rfl, rfl⟩

end Files

namespace Job

variable {σ : Type}

theorem outcome_fileExists (path : String) (w : World σ) :
    outcome (fileExists path) w = (.ok (w.files.has path), w) := rfl

theorem outcome_shownPath (path : String) (w : World σ) :
    outcome (shownPath path) w = (.ok s!"{w.root}/{path}", w) := rfl

theorem keeps_shownPath (path : String) : Keeps (shownPath path : Job σ String) :=
  fun _ => ⟨rfl, rfl⟩

theorem world_contentOf (path : String) (w : World σ) : (outcome (contentOf path) w).2 = w := by
  unfold contentOf
  rw [outcome_bind, outcome_get]
  dsimp only
  cases w.files.place path <;> rfl

theorem world_readJson (path : String) (w : World σ) : (outcome (readJson path) w).2 = w := by
  have hcontent := world_contentOf path w
  unfold readJson readText
  rw [outcome_bind, outcome_bind]
  rcases hrun : outcome (contentOf path) w with ⟨r, w'⟩
  rw [hrun] at hcontent
  obtain rfl : w' = w := hcontent
  cases r with
  | error e => rfl
  | ok content =>
    dsimp only
    rw [outcome_bind, outcome_lift]
    cases content.decode with
    | error e => rfl
    | ok cs =>
      dsimp only [outcome_pure]
      cases Json.read (String.ofList (Text.unifyLineEnds cs)) <;> rfl

theorem keeps_readJson (path : String) : Keeps (readJson path : Job σ Value) := by
  intro w
  rw [world_readJson]
  exact ⟨rfl, rfl⟩

variable {w w' : World σ} {path text : String}

theorem contentOf_returns_iff {content : Content} :
    Returns (contentOf path) w content w' ↔ w.files.place path = .file content ∧ w = w' := by
  unfold contentOf
  rw [returns_bind_of_returns (outcome_get w)]
  cases w.files.place path with
  | file c => simp [returns_pure]
  | _ => simp [returns_bind, returns_throw]

theorem readJson_returns_iff {v : Value} :
    Returns (readJson path) w v w' ↔ w.files.Holds path v ∧ w = w' := by
  unfold readJson readText
  simp only [returns_bind, returns_lift, returns_pure, contentOf_returns_iff]
  constructor
  · intro h
    obtain ⟨s, w₁, ⟨content, w₂, ⟨hplace, rfl⟩, cs, w₃, ⟨hdecode, rfl⟩, rfl, rfl⟩, hread⟩ := h
    split at hread
    case h_1 v' hv =>
      obtain ⟨rfl, rfl⟩ := returns_pure.mp hread
      exact ⟨⟨content, cs, hplace, hdecode, hv⟩, rfl⟩
    case h_2 => exact absurd hread returns_throw
  · intro h
    obtain ⟨⟨content, cs, hplace, hdecode, hv⟩, rfl⟩ := h
    refine ⟨_, w, ⟨content, w, ⟨hplace, rfl⟩, cs, w, ⟨hdecode, rfl⟩, rfl, rfl⟩, ?_⟩
    rw [hv]
    exact returns_pure.mpr ⟨rfl, rfl⟩

theorem outcome_readJson {content : Content} {cs : List Char} (h : w.files.place path = .file content)
    (hdecode : content.decode = .ok cs) : outcome (readJson path) w =
      ((Json.read (String.ofList (Text.unifyLineEnds cs))).mapError
        (·.toFailure (String.ofList (Text.unifyLineEnds cs))), w) := by
  have hcontent : Returns (contentOf path) w content w := contentOf_returns_iff.mpr ⟨h, rfl⟩
  have htext : Returns (readText path) w (String.ofList (Text.unifyLineEnds cs)) w :=
    returns_bind.mpr ⟨content, w, hcontent, returns_bind.mpr ⟨cs, w, returns_lift.mpr ⟨hdecode, rfl⟩, rfl⟩⟩
  unfold readJson
  rw [outcome_bind, show outcome (readText path) w = _ from htext]
  dsimp only
  cases Json.read (String.ofList (Text.unifyLineEnds cs)) <;> rfl

/-- Only a text that is not JSON is refused as such. -/
theorem garbled_of_fails {message : String} (h : Fails (readJson path) w (.notJson message) w') :
    w.files.Garbled path := by
  cases hplace : w.files.place path with
  | file content =>
    cases hdecode : content.decode with
    | ok cs =>
      rw [Fails, outcome_readJson hplace hdecode] at h
      cases hread : Json.read (String.ofList (Text.unifyLineEnds cs)) with
      | ok v =>
        rw [hread] at h
        cases (Prod.mk.inj h).1
      | error fault =>
        rw [hread] at h
        exact ⟨content, cs, fault, message, hplace, hdecode, hread, Except.error.inj (Prod.mk.inj h).1⟩
    | error e =>
      obtain ⟨u, rfl⟩ := Content.decode_error hdecode
      have hcontent : Returns (contentOf path) w content w := contentOf_returns_iff.mpr ⟨hplace, rfl⟩
      unfold Fails readJson readText at h
      rw [outcome_bind, outcome_bind, show outcome (contentOf path) w = _ from hcontent] at h
      dsimp only at h
      rw [hdecode] at h
      cases h
  | _ =>
    unfold Fails readJson readText contentOf at h
    simp only [outcome_bind, outcome_get, hplace] at h
    cases h

/-- Reads a document, or takes an empty list where there is none. -/
theorem readOrEmpty_returns_iff {v : Value} :
    Returns (do if ← fileExists path then readJson path else return .list []) w v w' ↔
      w.files.Lists path v ∧ w = w' := by
  rw [returns_bind_of_returns (outcome_fileExists path w)]
  unfold Files.Lists
  split
  · exact readJson_returns_iff
  · rw [returns_pure, eq_comm]

theorem outcome_writeText (path text : String) (w : World σ) :
    outcome (writeText path text) w = (.ok (), { w with files := w.files.put path (.text text) }) ∨
      ∃ e, outcome (writeText path text) w = (.error e, w) := by
  unfold writeText
  rw [outcome_bind]
  dsimp only [outcome_get]
  cases w.files.place path with
  | file _ => exact .inl rfl
  | directory => exact .inr ⟨_, rfl⟩
  | blocked => exact .inr ⟨_, rfl⟩
  | nothing =>
    dsimp only
    split
    · exact .inl rfl
    · exact .inr ⟨_, rfl⟩

theorem writeText_of_place (text : String)
    (h : (∃ content, w.files.place path = .file content) ∨
      w.files.place path = .nothing ∧ w.files.canHold path = true) :
    Returns (writeText path text) w () { w with files := w.files.put path (.text text) } := by
  unfold writeText
  rw [returns_bind_of_returns (outcome_get w)]
  rcases h with ⟨content, hplace⟩ | ⟨hplace, hholds⟩
  · rw [hplace]
    rfl
  · rw [hplace]
    dsimp only
    rw [if_pos hholds]
    rfl

theorem makeDirectory_of_place (h : w.files.place path = .nothing) :
    Returns (makeDirectory path) w () { w with files := w.files.makeDirectory path } := by
  unfold makeDirectory
  rw [returns_bind_of_returns (outcome_get w), h]
  rfl

theorem outcome_makeDirectory (hnew : w.files.has path = false) : outcome (makeDirectory path) w =
        (.ok (), { w with files := w.files.makeDirectory path }) ∨
      ∃ e, outcome (makeDirectory path) w = (.error e, w) := by
  rcases Files.place_of_has_eq_false hnew with hplace | hplace
  · exact .inl (makeDirectory_of_place hplace)
  · unfold makeDirectory
    rw [outcome_bind]
    dsimp only [outcome_get]
    rw [hplace]
    exact .inr ⟨_, rfl⟩

/-- What is written takes the place of one file, and the path leads through none. -/
theorem writeText_returns {u : Unit} (h : Returns (writeText path text) w u w') :
    w'.files = w.files.put path (.text text) ∧ ∀ p ∈ Files.parents path, w.files.get? p = none := by
  constructor
  · rcases outcome_writeText path text w with hdone | ⟨e, hnot⟩
    · cases hdone.symm.trans h
      rfl
    · cases hnot.symm.trans h
  · apply Files.free_of_place
    intro hblocked
    unfold writeText at h
    rw [returns_bind_of_returns (outcome_get w), hblocked] at h
    obtain ⟨_, _, _, hthrow⟩ := returns_bind.mp h
    exact returns_throw hthrow

theorem place_of_writeText {u : Unit} (h : Returns (writeText path text) w u w')
    (hself : path ∉ Files.parents path) : w'.files.place path = .file (.text text) := by
  obtain ⟨hput, hfree⟩ := writeText_returns h
  rw [hput]
  exact Files.place_put_self _ hfree hself

theorem outcome_writeJson_of_whole {step : Nat} {v : Value} (h : v.Whole) (path : String) (w : World σ) :
    outcome (writeJson path step v) w = outcome (writeText path (Json.writeIndented step v)) w := by
  unfold writeJson
  dsimp only
  rw [Json.fault?_pieces_eq_none.mpr h, Json.begun_pieces h, outcome_bind]
  rcases outcome (writeText path (Json.writeIndented step v)) w with ⟨r, w'⟩
  cases r <;> rfl

theorem writeJson_of_not_whole {step : Nat} {v : Value} (h : ¬ v.Whole)
    (hwrite : Returns (writeText path (Json.begun (Json.pieces step v))) w () w') :
    ∃ e, Fails (writeJson path step v) w e w' ∧
      Json.BreaksOff step v e (Json.begun (Json.pieces step v)) := by
  obtain ⟨why, hwhy⟩ := Option.ne_none_iff_exists'.mp (mt Json.fault?_pieces_eq_none.mp h)
  refine ⟨.unencodable why, fails_bind.mpr (.inr ⟨(), w', hwrite, ?_⟩), why, hwhy, rfl, rfl⟩
  rw [hwhy]
  rfl

theorem writeJson_returns {step : Nat} {v : Value} {u : Unit} (h : Returns (writeJson path step v) w u w') :
    v.Whole ∧ Returns (writeText path (Json.writeIndented step v)) w u w' := by
  by_cases hwhole : v.Whole
  · exact ⟨hwhole, (outcome_writeJson_of_whole hwhole path w).symm.trans h⟩
  · obtain ⟨_, w₁, hwrite, -⟩ := returns_bind.mp h
    obtain ⟨e, hfails, -⟩ := writeJson_of_not_whole hwhole hwrite
    cases (Prod.mk.inj (hfails.symm.trans h)).1

/-- Where a document cannot be written to its end, the file is left with its beginning. -/
theorem writeJson_fails {step : Nat} {v : Value} {e : Failure} (h : Fails (writeJson path step v) w e w') :
    w' = w ∨ ∃ left, Json.BreaksOff step v e left ∧ Returns (writeText path left) w () w' := by
  unfold writeJson at h
  dsimp only at h
  rcases fails_bind.mp h with hwrite | ⟨u, w₁, hwrite, hend⟩
  · rcases outcome_writeText path (Json.begun (Json.pieces step v)) w with hdone | ⟨e', hnot⟩
    · cases hdone.symm.trans hwrite
    · cases hnot.symm.trans hwrite
      exact .inl rfl
  · cases hfault : Json.fault? (Json.pieces step v) with
    | none =>
      rw [hfault] at hend
      cases (Prod.mk.inj hend).1
    | some why =>
      rw [hfault] at hend
      cases hend
      exact .inr ⟨_, ⟨why, hfault, rfl, rfl⟩, hwrite⟩

/-- Whether a file can be written, or a directory made, is up to the places of files and directories. -/
theorem relates_writeText (path text text' : String) :
    Relates (fun w w' : World σ => w.files.Alike w'.files) (fun _ _ => True) (writeText path text)
      (writeText path text') := by
  intro w w' halike
  unfold writeText
  rw [outcome_bind, outcome_bind]
  dsimp only [outcome_get]
  rcases halike.place path with ⟨content, content', hfile, hfile'⟩ | hsame
  · rw [hfile, hfile']
    exact ⟨.ok trivial, halike.put path _ _⟩
  · rw [hsame]
    cases w'.files.place path with
    | file _ => exact ⟨.ok trivial, halike.put path _ _⟩
    | directory => exact ⟨.error _ _, halike⟩
    | blocked => exact ⟨.error _ _, halike⟩
    | nothing =>
      have hhold : w.files.canHold path = w'.files.canHold path := by
        unfold Files.canHold
        split
        · rfl
        · exact (halike _).2
      dsimp only
      rw [hhold]
      split
      · exact ⟨.ok trivial, halike.put path _ _⟩
      · exact ⟨.error _ _, halike⟩

theorem relates_makeDirectory (path : String) :
    Relates (fun w w' : World σ => w.files.Alike w'.files) (fun _ _ => True) (makeDirectory path)
      (makeDirectory path) := by
  intro w w' halike
  unfold makeDirectory
  rw [outcome_bind, outcome_bind]
  dsimp only [outcome_get]
  rcases halike.place path with ⟨content, content', hfile, hfile'⟩ | hsame
  · rw [hfile, hfile']
    exact ⟨.error _ _, halike⟩
  · rw [hsame]
    cases w'.files.place path with
    | file _ => exact ⟨.error _ _, halike⟩
    | directory => exact ⟨.ok trivial, halike⟩
    | blocked => exact ⟨.error _ _, halike⟩
    | nothing => exact ⟨.ok trivial, halike.makeDirectory path⟩

end Job

end ThreatAtlas
