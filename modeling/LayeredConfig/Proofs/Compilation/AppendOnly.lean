import LayeredConfig.Proofs.Compilation.Outcome
import LayeredConfig.Proofs.FileSystem.Steadiness

/-!
# Artifacts over whole sessions

A session compiles, reads and loads, in any order, while documents and other files are edited. As
long as edits leave the directory of a store alone, and no compilation goes through two dots behind
a directory that is missing, an artifact of the store is never changed and its documents are never
parsed again.

The condition on the dots cannot be dropped: a path that cannot be followed has no artifact, but
once its missing directory is made it may lead to the artifact of another path.
-/

namespace LayeredConfig

open Document (Reference)

namespace Settings.Outcome

variable {settings : Settings} {options : Options} {identifiers : List String} {fs : FileSystem}
  {compilation : Compilation} {signature : Signature}

private theorem grows (h : Outcome settings options identifiers fs compilation)
    (hsteady : ∀ signature, fs.Steady ((settings.storeFor options).artifactPath signature)) :
    fs.Grows compilation.files := by
  cases h with
  | failed _ made _ => exact made.grows
  | kept _ _ => exact .refl fs
  | written missed _ _ _ added => exact added.grows (hsteady _) missed.absent

private theorem contains (h : Outcome settings options identifiers fs compilation)
    (hresult : compilation.result = .ok signature) :
    (settings.storeFor options).contains compilation.files signature = true := by
  cases h with
  | failed _ _ _ => cases hresult
  | kept _ kept =>
    cases hresult
    exact kept
  | written _ _ _ _ added =>
    cases hresult
    exact added.contains

private theorem opened_of_contains (h : Outcome settings options identifiers fs compilation)
    (hresult : compilation.result = .ok signature)
    (hkept : (settings.storeFor options).contains fs signature = true) :
    compilation.opened = [] := by
  cases h with
  | failed _ _ _ => cases hresult
  | kept _ _ => rfl
  | written missed _ _ _ _ =>
    cases hresult
    rw [missed.absent] at hkept
    cases hkept

end Settings.Outcome

/-! ### Sessions -/

/-- What happens in a session. -/
inductive Event where
  | compile (settings : Settings) (options : Options) (identifiers : List String)
  | read (settings : Settings) (identifiers : List String)
  | load (store : Store) (signature : Signature)
  /-- Something else changes the files. -/
  | edit (after : FileSystem)

/-- An edit leaves a directory alone: its path leads where it led, and all that lies there is the
same. -/
def FileSystem.Spares (before after : FileSystem) (directory : Path) : Prop :=
  ∀ place, before.locateDirectory directory = .ok place →
    before.nodeAt place = some .directory →
      after.locateDirectory directory = .ok place ∧
        ∀ inner, place <:+ inner → after.nodeAt inner = before.nodeAt inner

namespace Event

/-- The files after an event. Reading and loading change nothing. -/
def files : Event → FileSystem → FileSystem
  | compile settings options identifiers, fs => (settings.compile options identifiers fs).files
  | read _ _, fs => fs
  | load _ _, fs => fs
  | edit after, _ => after

/-- An event does not disturb a store: a compilation is on steady paths, whatever store it uses, and
an edit leaves the directory of the store alone. -/
def Allowed (store : Store) (fs : FileSystem) : Event → Prop
  | compile settings options _ =>
    ∀ signature, fs.Steady ((settings.storeFor options).artifactPath signature)
  | read _ _ => True
  | load _ _ => True
  | edit after => fs.Spares after store.directory

/-- The compilation that an event is, if it uses the store. -/
def compilation? (store : Store) (fs : FileSystem) : Event → Option Compilation
  | compile settings options identifiers =>
    if settings.storeFor options = store then some (settings.compile options identifiers fs)
    else none
  | _ => none

end Event

namespace FileSystem

/-- The files after events in order. -/
def replay (fs : FileSystem) (events : List Event) : FileSystem :=
  events.foldl (fun fs event ↦ event.files fs) fs

end FileSystem

namespace Store

/-- Every event of a session is allowed when it happens. -/
def Undisturbed (store : Store) : FileSystem → List Event → Prop
  | _, [] => True
  | fs, event :: rest => event.Allowed store fs ∧ store.Undisturbed (event.files fs) rest

/-- The compilations of a session that use the store. -/
def compilations (store : Store) : FileSystem → List Event → List Compilation
  | _, [] => []
  | fs, event :: rest =>
    (event.compilation? store fs).toList ++ store.compilations (event.files fs) rest

variable {store : Store} {fs : FileSystem} {signature : Signature} {file : File}

/-- An allowed event keeps what is in the store. -/
theorem find_files {event : Event} (hextension : Settings.isPlainExtension store.extension)
    (hallowed : event.Allowed store fs)
    (h : fs.find (store.artifactPath signature) = .ok (.file file)) :
    (event.files fs).find (store.artifactPath signature) = .ok (.file file) := by
  cases event with
  | compile settings options identifiers =>
    exact ((Settings.outcome_compile settings options identifiers fs).grows hallowed).find h
  | read settings identifiers => exact h
  | load store signature => exact h
  | edit after =>
    have hname := store.isPlainName_fileName hextension signature
    obtain ⟨hu, hlimit, place, hplace, hn⟩ := (FileSystem.find_child_iff hname).mp h
    obtain ⟨hplace', hsame⟩ := hallowed place hplace (FileSystem.nodeAt_parent hn)
    have hn' : after.nodeAt (store.fileName signature :: place) = some (.file file) := by
      rw [hsame _ (List.suffix_cons _ place), hn]
    exact (FileSystem.find_child_iff hname).mpr ⟨hu, hlimit, place, hplace', hn'⟩

private theorem find_replay {events : List Event}
    (hextension : Settings.isPlainExtension store.extension)
    (hevents : store.Undisturbed fs events)
    (h : fs.find (store.artifactPath signature) = .ok (.file file)) :
    (fs.replay events).find (store.artifactPath signature) = .ok (.file file) := by
  induction events generalizing fs with
  | nil => exact h
  | cons event rest ih => exact ih hevents.2 (find_files hextension hevents.1 h)

private theorem opened_of_mem_compilations {events : List Event}
    (hextension : Settings.isPlainExtension store.extension)
    (hevents : store.Undisturbed fs events) (h : store.contains fs signature = true)
    {compilation : Compilation} (hmem : compilation ∈ store.compilations fs events)
    (hresult : compilation.result = .ok signature) : compilation.opened = [] := by
  induction events generalizing fs with
  | nil => simp [compilations] at hmem
  | cons event rest ih =>
    rw [compilations, List.mem_append] at hmem
    rcases hmem with hmem | hmem
    · -- the first event is the compilation, and it meets the artifact
      cases event with
      | compile settings options identifiers =>
        simp only [Event.compilation?] at hmem
        split at hmem
        · next hstore =>
          obtain rfl := List.mem_singleton.mp hmem
          have houtcome := Settings.outcome_compile settings options identifiers fs
          exact houtcome.opened_of_contains hresult (by rw [hstore]; exact h)
        · simp at hmem
      | read settings identifiers => simp [Event.compilation?] at hmem
      | load store signature => simp [Event.compilation?] at hmem
      | edit after => simp [Event.compilation?] at hmem
    · -- the compilation comes later, and the first event keeps the artifact for it
      obtain ⟨place, file, hl, hn⟩ := FileSystem.isFile_iff.mp h
      have hkept := find_files hextension hevents.1 (FileSystem.find_eq_ok_iff.mpr ⟨place, hl, hn⟩)
      exact ih hevents.2 (FileSystem.isFile_of_find hkept) hmem

private theorem pairwise_compilations {events : List Event}
    (hextension : Settings.isPlainExtension store.extension)
    (hevents : store.Undisturbed fs events) (signature : Signature) :
    (store.compilations fs events).Pairwise fun first second ↦
      first.result = .ok signature → second.result = .ok signature → second.opened = [] := by
  induction events generalizing fs with
  | nil => exact .nil
  | cons event rest ih =>
    rw [compilations]
    cases event with
    | compile settings options identifiers =>
      simp only [Event.compilation?]
      split
      · next hstore =>
        refine List.pairwise_cons.mpr ⟨fun second hsecond hfirst hresult ↦ ?_, ih hevents.2⟩
        -- a compilation that succeeds leaves its artifact to all that follow
        have hkept := (Settings.outcome_compile settings options identifiers fs).contains hfirst
        rw [hstore] at hkept
        exact opened_of_mem_compilations hextension hevents.2 hkept hsecond hresult
      · exact ih hevents.2
    | read settings identifiers => exact ih hevents.2
    | load other signature => exact ih hevents.2
    | edit after => exact ih hevents.2

private theorem undisturbed_append {earlier later : List Event} :
    store.Undisturbed fs (earlier ++ later) ↔
      store.Undisturbed fs earlier ∧ store.Undisturbed (fs.replay earlier) later := by
  induction earlier generalizing fs with
  | nil => simp [Undisturbed, FileSystem.replay]
  | cons event rest ih =>
    simp only [List.cons_append, Undisturbed, ih, and_assoc]
    rfl

/-- **An undisturbed store only grows, and what it holds is never made again.** From when an
artifact is there, readable or not, its bytes are the same and every compilation whose documents
have its signature gives that signature, opens nothing and changes nothing. So of all compilations
that give a signature only the first one opens documents. -/
theorem appendOnly_of_undisturbed (store : Store)
    (hextension : Settings.isPlainExtension store.extension) {fs : FileSystem}
    {earlier later : List Event} (hevents : store.Undisturbed fs (earlier ++ later))
    (signature : Signature) :
    (∀ file, (fs.replay earlier).find (store.artifactPath signature) = .ok (.file file) →
      (fs.replay (earlier ++ later)).find (store.artifactPath signature) = .ok (.file file) ∧
        ∀ (settings : Settings) options identifiers generator sources,
          settings.storeFor options = store →
            settings.Signed options identifiers (fs.replay (earlier ++ later)) generator sources
                signature →
              settings.compile options identifiers (fs.replay (earlier ++ later))
                = ⟨[], .ok signature, fs.replay (earlier ++ later)⟩) ∧
    (store.compilations fs (earlier ++ later)).Pairwise fun first second ↦
      first.result = .ok signature → second.result = .ok signature → second.opened = [] := by
  refine ⟨fun file hfile ↦ ?_, pairwise_compilations hextension hevents signature⟩
  have hreplay : fs.replay (earlier ++ later) = (fs.replay earlier).replay later :=
    List.foldl_append
  have hkept : (fs.replay (earlier ++ later)).find (store.artifactPath signature)
      = .ok (.file file) := by
    rw [hreplay]
    exact find_replay hextension (undisturbed_append.mp hevents).2 hfile
  refine ⟨hkept, fun settings options identifiers generator sources hstore hsigned ↦ ?_⟩
  refine hsigned.compile_of_contains ?_
  rw [hstore]
  exact FileSystem.isFile_of_find hkept

/-- A document and the artifact that the default settings keep for it. -/
def keptArtifact (document : ByteArray) : FileSystem :=
  { nodes :=
      [(["app.yaml"], .file document), (["cache"], .directory),
        (["config.2db85c57364f49db6d70bf387c82129197b1071248e89a54a53e71ad2a37bcae.php", "cache"],
          .file "kept".toUTF8)]
    workingDirectory := []
    distinct := by simp
    enclosed := by simp }

private theorem spares_keptArtifact (document other : ByteArray) :
    (keptArtifact document).Spares (keptArtifact other) ⟨"cache"⟩ := by
  have hplace (document : ByteArray) :
      (keptArtifact document).locateDirectory ⟨"cache"⟩ = .ok ["cache"] := rfl
  intro place hp _
  rw [hplace] at hp
  obtain rfl := Except.ok.inj hp
  refine ⟨hplace other, fun inner hinner ↦ ?_⟩
  cases inner with
  | nil => rfl
  | cons name parent =>
    have hne : ["app.yaml"] ≠ name :: parent := by
      intro he
      rw [← he] at hinner
      exact absurd hinner (by decide)
    have hfind (document : ByteArray) : (keptArtifact document).nodeAt (name :: parent)
        = FileSystem.find? (name :: parent) (keptArtifact document).nodes.tail := by
      rw [FileSystem.nodeAt, keptArtifact, FileSystem.find?, if_neg hne, List.tail_cons]
    rw [hfind, hfind]
    rfl

/-- A session in which the document becomes one that cannot be parsed. -/
def garblingSession : List Event :=
  [.edit (keptArtifact ⟨#[0xff]⟩), .compile {} {} ["app"]]

/-- A document that cannot be parsed any more is not parsed, and other code is asked for in vain. -/
theorem appendOnly_of_undisturbed_garblingSession :
    Settings.compile {} { mode := .flatten, segment := some "$x" } ["app"]
        ((keptArtifact "a: 1\n".toUTF8).replay garblingSession)
      = ⟨[], .ok (.ofPaths [⟨"./app.yaml"⟩]),
          (keptArtifact "a: 1\n".toUTF8).replay garblingSession⟩ := by
  have hevents : Undisturbed ⟨⟨"cache"⟩, "php"⟩ (keptArtifact "a: 1\n".toUTF8)
      ([] ++ garblingSession) :=
    ⟨spares_keptArtifact _ _, fun signature ↦ FileSystem.steady_child
      (isPlainName_fileName ⟨⟨"cache"⟩, "php"⟩ (by decide) signature) (by decide), trivial⟩
  have hfile : (keptArtifact "a: 1\n".toUTF8).find
      (artifactPath ⟨⟨"cache"⟩, "php"⟩ (.ofPaths [⟨"./app.yaml"⟩]))
        = .ok (.file "kept".toUTF8) := by
    decide +kernel
  have hsigned : Settings.Signed {} { mode := .flatten, segment := some "$x" } ["app"]
      ((keptArtifact "a: 1\n".toUTF8).replay garblingSession) (.flat ⟨"$x", "x"⟩)
      [⟨"app.yaml", ⟨"."⟩⟩] (.ofPaths [⟨"./app.yaml"⟩]) :=
    { built := by decide +kernel
      resolved := Reference.resolveAll_eq_ok_iff.mp (by decide +kernel)
      signing := rfl }
  exact ((appendOnly_of_undisturbed ⟨⟨"cache"⟩, "php"⟩ (by decide) hevents _).1 _ hfile).2 {}
    { mode := .flatten, segment := some "$x" } ["app"] _ _ rfl hsigned

/-- Through two dots behind a missing directory an artifact is replaced: the compilation does not
see it, makes the directory, and writes where the artifact is. -/
theorem readText_replaced_through_dots :
    (keptArtifact "a: 1\n".toUTF8).readText
        ⟨"cache/config.2db85c57364f49db6d70bf387c82129197b1071248e89a54a53e71ad2a37bcae.php"⟩
      = .ok "kept" ∧
    ((keptArtifact "a: 1\n".toUTF8).replay
          [.compile {} { cacheDirectory := some ⟨"a/../cache"⟩ } ["app"]]).readText
        ⟨"cache/config.2db85c57364f49db6d70bf387c82129197b1071248e89a54a53e71ad2a37bcae.php"⟩
      = .ok (Code.renderArtifact ["./app.yaml"] "$config[\"a\"] = 1;") := by
  decide +kernel

end Store

end LayeredConfig
