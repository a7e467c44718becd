import LayeredConfig.CommandLine.Reach
import LayeredConfig.Proofs.CommandLine.Line
import LayeredConfig.Proofs.CommandLine.Reloading
import LayeredConfig.Proofs.Compilation.Stored

/-!
# Compiling and displaying

What a compilation prints names an artifact, which the next run displays: the store finds it under
the same settings, and its text is printed as it is in the file. The settings are the same because
an artifact that is added leaves them alone, with one exception: through two dots behind a directory
that was missing it may replace the settings file itself.
-/

namespace LayeredConfig

/-! ### What a compilation leaves in the store -/

namespace Settings

variable {settings : Settings} {options : Options} {identifiers : List String} {fs : FileSystem}
  {signature : Signature}

private theorem Outcome.kept_or_added {compilation : Compilation}
    (h : Outcome settings options identifiers fs compilation)
    (hresult : compilation.result = .ok signature) :
    (settings.storeFor options).contains fs signature = true ∧ compilation.files = fs ∨
      (settings.storeFor options).contains fs signature = false ∧
        ∃ artifact place, (settings.storeFor options).Added fs compilation.files signature
          (Artifact.text artifact) place := by
  cases h with
  | failed _ _ _ => cases hresult
  | kept _ kept =>
    cases hresult
    exact .inl ⟨kept, rfl⟩
  | written missed _ _ _ added =>
    cases hresult
    exact .inr ⟨missed.absent, _, _, added⟩

end Settings

namespace CommandLine

/-! ### Commands -/

variable {settings : Settings} {fs files : FileSystem} {output : String}

/-- A command that compiles prints the name of a signature. Its artifact was there, or has been
added. -/
theorem Command.compile_success {identifiers : List String} {options : Options}
    {root : Option Path} {signContent : Bool}
    (h : (Command.compile identifiers options root signContent).run settings fs
      = .success output files) :
    ∃ signature : Signature, output = signature.name ++ "\n" ∧
      ((storeAt settings options.cacheDirectory).contains fs signature = true ∧ files = fs ∨
        (storeAt settings options.cacheDirectory).contains fs signature = false ∧
          ∃ artifact place, (storeAt settings options.cacheDirectory).Added fs files signature
            (Artifact.text artifact) place) := by
  have houtcome := Settings.outcome_compile (withContent signContent (withRoot root settings))
    options identifiers fs
  simp only [Command.run] at h
  split at h
  · simp [Outcome.failed, Outcome.success] at h
  · next signature hresult =>
    simp only [Outcome.success, Outcome.mk.injEq, true_and] at h
    obtain ⟨rfl, rfl⟩ := h
    exact ⟨signature, rfl, houtcome.kept_or_added hresult⟩

private theorem Command.run_display {directory : Option Path} {signature : Signature}
    {text : String}
    (h : fs.readText ((storeAt settings directory).artifactPath signature) = .ok text) :
    (Command.display signature.name directory).run settings fs = .success text fs := by
  have hload : (storeAt settings directory).load fs signature = .ok text := by
    rw [Store.load, h]
    rfl
  simp only [Command.run, Signature.parse?_name, hload]

/-! ### Runs -/

variable {invocation other : Invocation} {environment : Environment} {arguments : List String}

/-- The settings file that a line names. -/
def settingsFile? (environment : Environment) (arguments : List String) : Option Path :=
  match parse environment arguments with
  | .error _ => none
  | .ok invocation => invocation.settingsFile

/-- The path of an artifact under the settings and in the directory that a line asks for. -/
def artifactPath? (environment : Environment) (arguments : List String) (fs : FileSystem)
    (handle : String) : Option Path :=
  match parse environment arguments with
  | .error _ => none
  | .ok invocation =>
    match invocation.settings fs with
    | .error _ => none
    | .ok settings => (invocation.command.directory? settings).map fun directory ↦
        directory.child (handle ++ "." ++ settings.extension)

/-- The settings file that a line names lies where a path leads now, and did not lead before. -/
def SettingsReplaced (environment : Environment) (arguments : List String)
    (before after : FileSystem) (path : Path) : Prop :=
  ∃ file place, settingsFile? environment arguments = some file ∧
    before.locate file = .ok place ∧ after.locate path = .ok place ∧
      before.locate path ≠ .ok place

private theorem Invocation.isPlainExtension_of_settings
    (h : invocation.settings fs = .ok settings) :
    Settings.isPlainExtension settings.extension = true := by
  rw [Invocation.settings] at h
  split at h
  · exact Settings.isPlainExtension_of_load h
  · exact Settings.isPlainExtension_of_discover h

private theorem Invocation.settings_of_added {store : Store} {signature : Signature} {text : String}
    {place : Location} (hsame : other.settingsFile = invocation.settingsFile)
    (hdots : ".." ∉ FileSystem.partsOf fs.workingPath)
    (hextension : Settings.isPlainExtension store.extension = true)
    (hadded : store.Added fs files signature text place)
    (h : invocation.settings fs = .ok settings)
    (hne : ∀ file, invocation.settingsFile = some file → fs.locate file ≠ .ok place) :
    other.settings files = .ok settings := by
  rw [Invocation.settings] at h ⊢
  rw [hsame]
  cases hfile : invocation.settingsFile with
  | some file =>
    simp only [hfile] at h ⊢
    exact hadded.load_settings h (hne file hfile)
  | none =>
    simp only [hfile] at h ⊢
    rw [FileSystem.workingPath, hadded.workingDirectory]
    exact hadded.discover_settings hextension hdots h

/-- A run without a failure goes well. -/
theorem Outcome.eq_success {outcome : Outcome}
    (h : outcome.exitCode = 0 ∧ outcome.output = output ∧ outcome.report = none) :
    outcome = .success output outcome.files := by
  obtain ⟨hcode, houtput, hreport⟩ := h
  rw [success, ← hcode, ← houtput, ← hreport]

private theorem run_success (h : run environment arguments fs = .success output files)
    (hparse : parse environment arguments = .ok invocation) :
    ∃ settings, invocation.settings fs = .ok settings ∧
      invocation.command.run settings fs = .success output files := by
  simp only [run, hparse] at h
  split at h
  · simp [Outcome.failed, Outcome.success] at h
  · next settings hsettings => exact ⟨settings, hsettings, h⟩

private theorem run_display {settingsFile directory : Option Path} {signature : Signature}
    {text : String}
    (hparse : parse environment arguments
      = .ok ⟨settingsFile, .display signature.name directory⟩)
    (hsettings : Invocation.settings ⟨settingsFile, .display signature.name directory⟩ fs
      = .ok settings)
    (htext : fs.readText ((storeAt settings directory).artifactPath signature) = .ok text) :
    run environment arguments fs = .success text fs := by
  simp only [run, hparse, hsettings, Command.run_display htext]

/-- The settings file that was named lay where its path leads. -/
theorem Invocation.exists_file_of_settings {file : Path} {place : Location}
    (h : invocation.settings fs = .ok settings) (hnamed : invocation.settingsFile = some file)
    (hplace : fs.locate file = .ok place) :
    ∃ bytes : ByteArray, fs.nodeAt place = some (.file bytes) := by
  simp only [Invocation.settings, hnamed] at h
  obtain ⟨text, htext, -⟩ := Settings.load_eq_ok_iff.mp h
  obtain ⟨other, hother, hn⟩ :=
    FileSystem.readBytes_eq_ok_iff.mp (FileSystem.readBytes_of_readText htext)
  obtain rfl : place = other := Except.ok.inj (hplace.symm.trans hother)
  exact ⟨_, hn⟩

namespace SettingsReplaced

variable {store : Store} {signature : Signature} {text : String} {place : Location}

/-- A settings file where an artifact was added has been replaced. The path of the artifact did not
lead there before, or the artifact would have been found. -/
theorem of_locate {file : Path} (hadded : store.Added fs files signature text place)
    (habsent : store.contains fs signature = false)
    (hparse : parse environment arguments = .ok invocation)
    (hsettings : invocation.settings fs = .ok settings)
    (hnamed : invocation.settingsFile = some file) (hplace : fs.locate file = .ok place) :
    SettingsReplaced environment arguments fs files (store.artifactPath signature) := by
  refine ⟨file, place, ?_, hplace, hadded.located, fun hbefore ↦ ?_⟩
  · simp only [settingsFile?, hparse, hnamed]
  · obtain ⟨bytes, hn⟩ := Invocation.exists_file_of_settings hsettings hnamed hplace
    have hkept : store.contains fs signature = true :=
      FileSystem.isFile_iff.mpr ⟨place, _, hbefore, hn⟩
    rw [habsent] at hkept
    cases hkept

private theorem not_steady (hadded : store.Added fs files signature text place)
    (hparse : parse environment arguments = .ok invocation)
    (hsettings : invocation.settings fs = .ok settings)
    (h : SettingsReplaced environment arguments fs files (store.artifactPath signature)) :
    ¬ fs.Steady (store.artifactPath signature) ∧
      ∃ file, invocation.settingsFile = some file ∧ fs.locate file = .ok place := by
  obtain ⟨file, replaced, hnamed, hfile, hartifact, hbefore⟩ := h
  obtain rfl : place = replaced := Except.ok.inj (hadded.located.symm.trans hartifact)
  simp only [settingsFile?, hparse] at hnamed
  obtain ⟨bytes, hn⟩ := Invocation.exists_file_of_settings hsettings hnamed hfile
  refine ⟨fun hsteady ↦ hbefore ?_, file, hnamed, hfile⟩
  exact hsteady.locate hadded.workingDirectory hadded.directory hadded.located
    (by simp [hadded.stored]) hn

end SettingsReplaced

/-- **What a run compiles, the next run displays.** When a line that compiles succeeds with a
handle, a line that follows it succeeds too, unless the artifact that was there is no text, and
prints the bytes of the artifact that was found or written as they are. The one exception is a
settings file that the artifact has replaced: the path of the artifact had two dots behind a
directory that was missing, and the next run fails. The path of the working directory is made of
names, and so holds no two dots itself. -/
theorem displayed_of_compiled {compiling displaying : List String} {handle : String}
    (hfollows : Follows compiling displaying handle)
    (hdots : ".." ∉ FileSystem.partsOf fs.workingPath)
    (hcompiled : run environment compiling fs = .success (handle ++ "\n") files) :
    ∃ path, artifactPath? environment compiling fs handle = some path ∧
      (files = fs ∨ fs.isFile path = false) ∧
      (¬ SettingsReplaced environment compiling fs files path →
        (fs.isFile path = true → ∃ text, fs.readText path = .ok text) →
          ∃ text, files.readBytes path = .ok text.toUTF8 ∧
            run environment displaying files = .success text files) ∧
      (SettingsReplaced environment compiling fs files path →
        ¬ fs.Steady path ∧ (run environment displaying files).exitCode = 1) := by
  rcases hfollows.parse environment with
    ⟨misuse, hparse⟩ | ⟨settingsFile, identifiers, options, root, signContent, hparse, hparse'⟩
  · simp [run, hparse, Outcome.success] at hcompiled
  obtain ⟨settings, hsettings, hrun⟩ := run_success hcompiled hparse
  obtain ⟨signature, hhandle, hstore⟩ := Command.compile_success hrun
  obtain rfl : handle = signature.name := by simpa using hhandle
  have hextension := Invocation.isPlainExtension_of_settings hsettings
  refine ⟨(storeAt settings options.cacheDirectory).artifactPath signature, ?_, ?_⟩
  · simp only [artifactPath?, hparse, hsettings]
    rfl
  rcases hstore with ⟨hkept, rfl⟩ | ⟨habsent, artifact, place, hadded⟩
  · -- the artifact was found, and nothing has changed
    refine ⟨.inl rfl, fun _ htext ↦ ?_, ?_⟩
    · obtain ⟨text, htext⟩ := htext hkept
      exact ⟨text, FileSystem.readBytes_of_readText htext, run_display hparse' hsettings htext⟩
    · rintro ⟨file, place, -, -, hafter, hbefore⟩
      exact absurd hafter hbefore
  · refine ⟨.inr habsent, fun hkept _ ↦ ?_, fun hreplaced ↦ ?_⟩
    · have hsettings' : Invocation.settings
          ⟨settingsFile, .display signature.name options.cacheDirectory⟩ files = .ok settings :=
        Invocation.settings_of_added rfl hdots hextension hadded hsettings
          fun file hfile hplace ↦ hkept (.of_locate hadded habsent hparse hsettings hfile hplace)
      exact ⟨artifact.text, hadded.readBytes, run_display hparse' hsettings'
        (FileSystem.readText_of_readBytes hadded.readBytes)⟩
    · obtain ⟨hsteady, file, hfile, hplace⟩ := hreplaced.not_steady hadded hparse hsettings
      have hsettings' : Invocation.settings
          ⟨settingsFile, .display signature.name options.cacheDirectory⟩ files
            = .error (.inFile file (.malformed .malformed)) := by
        simp only at hfile
        simp only [Invocation.settings, hfile]
        exact hadded.load_replaced hplace
      refine ⟨hsteady, ?_⟩
      simp only [run, hparse', hsettings']
      rfl

/-- A document, and settings for another extension. -/
def configuredFiles : FileSystem :=
  { nodes :=
      [(["app.yaml"], .file "a: 1\n".toUTF8),
        (["conf.toml"], .file "[compiler]\nextension = \"inc\"\n".toUTF8)]
    workingDirectory := []
    distinct := by simp
    enclosed := by simp }

/-- What a compilation of `app` prints, if nothing but its path is signed. -/
def appHandle : String := "config.2db85c57364f49db6d70bf387c82129197b1071248e89a54a53e71ad2a37bcae"

/-- The settings file may be named before one command and behind the other, and the directory may
come from the environment. -/
theorem displayed_of_compiled_configured :
    ∃ files text,
      run [("CONFCACHE_CACHE_DIR", "built")] ["--config", "conf.toml", "compile", "app"]
          configuredFiles = .success (appHandle ++ "\n") files ∧
      files.readBytes ⟨"built/" ++ appHandle ++ ".inc"⟩ = .ok text.toUTF8 ∧
      run [("CONFCACHE_CACHE_DIR", "built")] ["show", appHandle, "-c", "conf.toml"] files
        = .success text files := by
  have hfollows : Follows ["--config", "conf.toml", "compile", "app"]
      ["show", appHandle, "-c", "conf.toml"] appHandle :=
    ⟨⟨[(.settingsFile, "conf.toml")], []⟩, ⟨[], ["app"]⟩, {},
      ⟨[(.settingsFile, "conf.toml")], [appHandle]⟩,
      ⟨["app"], by decide +kernel⟩, ⟨_, rfl, by decide +kernel⟩, rfl, rfl, rfl⟩
  have hrun : run [("CONFCACHE_CACHE_DIR", "built")] ["--config", "conf.toml", "compile", "app"]
      configuredFiles = .success (appHandle ++ "\n") _ := Outcome.eq_success (by decide +kernel)
  obtain ⟨path, hpath, -, hdisplayed, hreplaced⟩ :=
    displayed_of_compiled hfollows (by decide) hrun
  have hbuilt : path = ⟨"built/" ++ appHandle ++ ".inc"⟩ := by
    rw [← Option.some.injEq, ← hpath]
    decide +kernel
  subst hbuilt
  obtain ⟨text, hbytes, hshown⟩ := hdisplayed
    (fun h ↦ (hreplaced h).1 (FileSystem.steady_of_not_mem (by decide +kernel)))
    (fun h ↦ absurd h (by decide +kernel))
  exact ⟨_, text, hrun, hbytes, hshown⟩

/-- A document, and an empty settings file with the name of an artifact. -/
def misplacedSettings : FileSystem :=
  { nodes :=
      [(["app.yaml"], .file "a: 1\n".toUTF8), (["cfg"], .directory),
        ([appHandle ++ ".php", "cfg"], .file "".toUTF8)]
    workingDirectory := []
    distinct := by simp
    enclosed := by simp }

/-- A line with that settings file and a directory behind a missing one. -/
def throughDots (command : List String) : List String :=
  ["--config", "cfg/" ++ appHandle ++ ".php"] ++ command ++ ["--cache-dir", "a/../cfg"]

/-- Through two dots behind a missing directory the settings file is replaced by the artifact: the
run that compiles succeeds, and the one that follows it has no settings. -/
theorem not_displayed_through_dots :
    Follows (throughDots ["compile", "app"]) (throughDots ["show", appHandle]) appHandle ∧
      ∃ files,
        run [] (throughDots ["compile", "app"]) misplacedSettings
          = .success (appHandle ++ "\n") files ∧
        (run [] (throughDots ["show", appHandle]) files).exitCode = 1 := by
  refine ⟨⟨⟨[(.settingsFile, "cfg/" ++ appHandle ++ ".php")], []⟩,
    ⟨[(.cacheDirectory, "a/../cfg")], ["app"]⟩,
    ⟨[(.settingsFile, "cfg/" ++ appHandle ++ ".php")], []⟩,
    ⟨[(.cacheDirectory, "a/../cfg")], [appHandle]⟩,
    ⟨["app", "--cache-dir", "a/../cfg"], by decide +kernel⟩,
    ⟨[appHandle, "--cache-dir", "a/../cfg"], by decide +kernel⟩, rfl, rfl, rfl⟩, _,
    Outcome.eq_success (by decide +kernel), by decide +kernel⟩

end CommandLine

end LayeredConfig
