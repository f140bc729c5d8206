import ModularBuild.Proofs.Build.Preflight
import ModularBuild.Proofs.Build.Rebuilding
import ModularBuild.Proofs.Files.Copies

/-!
# What is installed

Programs are copied, after they have been built, to the files below the prefix that are called like
their executables. Whether every one of them arrives there, and stays where it was built, depends on
which of these paths lead to one file (`installsFaithfully_iff`): an executable that is installed
where it lies is emptied (`not_installsFaithfully_inPlace`), and of two with one file name the later
takes the place of the earlier.
-/

namespace ModularBuild

open FileSystem

namespace Operation

variable {h : Host} {w w' : World} {src dir p : Path}

theorem run_of_installing {α : Type} {op : Operation α} {a : α}
    (hrun : (Workspace.installing p op).run w = (.ok a, w')) : op.run w = (.ok a, w') := by
  rw [Workspace.installing, run_mapFailure] at hrun
  rcases hop : op.run w with ⟨e | b, w₁⟩
  · rw [hop] at hrun
    cases hrun
  · rw [hop] at hrun
    cases hrun
    rfl

/-- A file that has been copied into a directory has a name, and is there under it. -/
theorem copy_of_copyInto (hrun : (copyInto h src dir).run w = (.ok p, w')) :
    ∃ name, src.fileName? = some name ∧ p = dir / ⟨name⟩ ∧
      (FileTask.copy h.cwd src p).exec w.files = (.ok (), w'.files) := by
  unfold copyInto at hrun
  cases hname : src.fileName? with
  | none =>
    rw [hname] at hrun
    cases hrun
  | some name =>
    rw [hname] at hrun
    obtain ⟨_, w₁, hcopy, hreturn⟩ := exists_of_bind_eq_ok hrun
    cases hreturn
    exact ⟨name, rfl, rfl, files_of_onFiles hcopy⟩

end Operation

namespace Workspace

open Operation

variable {ws : Workspace} {h : Host} {request : InstallRequest} {w w₁ w' : World} {p : Path}

/-! ## Where programs are installed -/

def binDirectory (ws : Workspace) (request : InstallRequest) : Path :=
  ws.installPrefix request.destination / "bin"

/-- What an executable is called below the prefix. -/
def installedAs (ws : Workspace) (request : InstallRequest) (p : Path) : Path :=
  ws.binDirectory request / ⟨(ws.locate p).fileName?.getD ""⟩

def transferOf (ws : Workspace) (request : InstallRequest) (p : Path) : Transfer :=
  ⟨ws.locate p, ws.installedAs request p⟩

def transfers (ws : Workspace) (request : InstallRequest) : List Transfer :=
  ws.installedExecutables.map (ws.transferOf request)

/-- Every program's executable is still there with the content that it had when it was built, and is
there below the prefix with the same content. -/
def InstallsFaithfully (ws : Workspace) (h : Host) (request : InstallRequest)
    (built installed : FileSystem) : Prop :=
  ∀ p ∈ ws.installedExecutables, Delivered built installed h.cwd (ws.transferOf request p)

/-! ## The steps of an installation -/

theorem copied_of_installFiles {ps installed : List Path}
    (hrun : (ps.mapM fun p => installFile h (ws.locate p) (ws.binDirectory request)).run w =
      (.ok installed, w')) :
    installed = ps.map (ws.installedAs request) ∧
      Copied h.cwd (ps.map (ws.transferOf request)) w.files w'.files := by
  induction ps generalizing w installed with
  | nil =>
    cases hrun
    exact ⟨rfl, .nil⟩
  | cons p ps ih =>
    rw [List.mapM_cons] at hrun
    obtain ⟨dst, w₁, hfirst, hrun⟩ := exists_of_bind_eq_ok hrun
    obtain ⟨rest, w₂, hrest, hreturn⟩ := exists_of_bind_eq_ok hrun
    cases hreturn
    obtain ⟨dst', w₃, hcopy, hlog⟩ := exists_of_bind_eq_ok hfirst
    obtain ⟨_, w₄, htold, hreturn⟩ := exists_of_bind_eq_ok hlog
    cases hreturn
    cases htold
    obtain ⟨name, hname, rfl, hexec⟩ := copy_of_copyInto (run_of_installing hcopy)
    obtain ⟨rfl, hcopied⟩ := ih hrest
    have hdst : ws.installedAs request p = ws.binDirectory request / ⟨name⟩ := by
      rw [installedAs, hname, Option.getD_some]
    refine ⟨by rw [List.map_cons, hdst], ?_⟩
    rw [List.map_cons]
    refine .cons ?_ hcopied
    rw [transferOf, hdst]
    exact hexec

/-- After the build, an installation of programs makes a directory and copies the executables. -/
theorem copied_of_installBin {installed : List Path}
    (hbuild : (ws.buildFor h request .programs).run w = (.ok (), w₁))
    (hinstall : (ws.installBin h request).run w = (.ok installed, w')) :
    installed = ws.installedExecutables.map (ws.installedAs request) ∧
      ∃ fs, Furnished w₁.files fs ∧ Copied h.cwd (ws.transfers request) fs w'.files := by
  obtain ⟨_, w₂, hbuild', hinstall⟩ := exists_of_bind_eq_ok hinstall
  cases hbuild.symm.trans hbuild'
  obtain ⟨dir, w₂, hdir, hinstall⟩ := exists_of_bind_eq_ok hinstall
  obtain ⟨_, w₃, hmake, hreturn⟩ := exists_of_bind_eq_ok hdir
  cases hreturn
  obtain ⟨hinstalled, hcopied⟩ := copied_of_installFiles hinstall
  refine ⟨hinstalled, w₂.files, ?_, hcopied⟩
  have hexec := files_of_onFiles (run_of_installing hmake)
  have hfurnished := preserves_ensureDirectory_furnished w₁.files h.cwd
    (ws.binDirectory request) w₁.files .refl
  replace hfurnished : Furnished w₁.files
    ((FileTask.ensureDirectory h.cwd (ws.binDirectory request)).exec w₁.files).2 := hfurnished
  rwa [show (FileTask.ensureDirectory h.cwd (ws.binDirectory request)).exec w₁.files = _
    from hexec] at hfurnished

theorem extended_of_installBin {installed : List Path}
    (hbuild : (ws.buildFor h request .programs).run w = (.ok (), w₁))
    (hinstall : (ws.installBin h request).run w = (.ok installed, w'))
    (hcoherent : w₁.files.Coherent) (hcwd : Standing w₁.files h.cwd) :
    Extended w₁.files w'.files := by
  obtain ⟨-, fs, hfurnished, hcopied⟩ := copied_of_installBin hbuild hinstall
  exact hfurnished.toExtended.trans
    (hcopied.extended (hfurnished.coherent hcoherent) (hfurnished.standing hcwd)).1

/-! ## Which programs arrive -/

theorem installsFaithfully_iff_delivered {built installed : FileSystem} :
    ws.InstallsFaithfully h request built installed ↔
      ∀ t ∈ ws.transfers request, Delivered built installed h.cwd t :=
  List.forall_mem_map.symm

/-- **What an installation of programs delivers.** Let an installation succeed, on files that show
the same under all their names. It gives the paths of the executables below the prefix. If no
executable is installed where it lies, every program is installed faithfully exactly when every
executable was built, what it is installed as is a regular file, and no program that was built with
other content is installed as that file or has it for its executable. An executable that is
installed where it lies is empty afterwards, unless one that lies elsewhere is installed there. -/
theorem installsFaithfully_iff {installed : List Path}
    (hbuild : (ws.buildFor h request .programs).run w = (.ok (), w₁))
    (hinstall : (ws.installBin h request).run w = (.ok installed, w'))
    (hcoherent : w₁.files.Coherent) (hcwd : Standing w₁.files h.cwd) :
    installed = ws.installedExecutables.map (ws.installedAs request) ∧
    ((∀ t ∈ ws.transfers request, ¬ w'.files.SameFile h.cwd t.destination t.source) →
      (ws.InstallsFaithfully h request w₁.files w'.files ↔ ∀ t ∈ ws.transfers request,
        Undisturbed w₁.files w'.files h.cwd (ws.transfers request) t)) ∧
    ∀ t ∈ ws.transfers request, w'.files.SameFile h.cwd t.destination t.source →
      (∀ t' ∈ ws.transfers request, w'.files.SameFile h.cwd t'.destination t.destination →
        w'.files.SameFile h.cwd t'.destination t'.source) →
      w'.files.contents? h.cwd t.source = some [] := by
  obtain ⟨hinstalled, fs, hfurnished, hcopied⟩ := copied_of_installBin hbuild hinstall
  have hc := hfurnished.coherent hcoherent
  have hs := hfurnished.standing hcwd
  refine ⟨hinstalled, fun hself => ?_, fun t ht hself honly =>
    hcopied.contents?_of_self hc hs ht hself honly⟩
  -- The directory that is made for them changes no executable that is there.
  have hkept : (∀ t ∈ ws.transfers request, (w₁.files.contents? h.cwd t.source).isSome) →
      ∀ t ∈ ws.transfers request,
        fs.contents? h.cwd t.source = w₁.files.contents? h.cwd t.source := fun hbuilt t ht => by
    obtain ⟨l, hl⟩ := exists_of_isSome_contents? (hbuilt t ht)
    exact hfurnished.contents?_eq hcwd hl
  have hiff := hcopied.delivered_iff hc hs hself
  rw [installsFaithfully_iff_delivered]
  constructor
  · intro hall
    have hsources := hkept fun t ht => by
      obtain ⟨bytes, hbytes, -⟩ := hall t ht
      rw [hbytes, Option.isSome_some]
    have hts := hiff.mp fun t ht => (hall t ht).congr (hsources t ht)
    exact fun t ht => (hts t ht).congr ht fun t ht => (hsources t ht).symm
  · intro hts
    have hsources := hkept fun t ht => (hts t ht).1
    have hall := hiff.mpr fun t ht => (hts t ht).congr ht hsources
    exact fun t ht => (hall t ht).congr (hsources t ht).symm

/-! ## Installing what is up to date -/

theorem run_build_of_upToDate {order : BuildRequest} {g : ArtifactGraph} {target : NodeId}
    {site : BuildSite} (hready : ws.Ready h w.files order g target site)
    (htarget : target < g.nodes.size)
    (hfresh : ∀ n, g.Reaches target n → (site.workbench h).UpToDate g w n) :
    ∃ summary t, t.files = w.files ∧ (ws.build h order).run w = (.ok summary, t) := by
  obtain ⟨es, hpreflight⟩ := hready.tells_preflight
  let t : World := { w with events := es ++ w.events }
  let t₁ : World := (World.log .info s!"building `{order.target}`" t).2
  have hdone : ∀ n, g.Reaches target n → (site.workbench h).UpToDate g t₁ n := hfresh
  have hord := ArtifactGraph.ordered_derive (graph_eq_ok_iff.mp hready.derived)
  obtain ⟨summary, hexecute⟩ :
      ∃ summary, (site.runner h g).execute g target t₁ = (.ok summary, t₁) := by
    rw [BuildSite.runner_eq]
    exact ⟨_, Workbench.execute_of_upToDate hord htarget hdone _⟩
  have hrun : (liftM ((site.runner h g).execute g target) : Operation _).run t₁ =
      (.ok (.ok summary), t₁) := by
    show (Except.ok ((site.runner h g).execute g target t₁).1,
      ((site.runner h g).execute g target t₁).2) = _
    rw [hexecute]
  unfold build
  rw [run_bind_of_ok hpreflight]
  dsimp only
  rw [run_bind_of_ok (show (liftM (World.log .info s!"building `{order.target}`") :
      Operation Unit).run t = (.ok (), t₁) from rfl),
    run_bind_of_ok (show (get : Operation World).run t₁ = (.ok t₁, t₁) from rfl),
    run_bind_of_ok hrun]
  refine ⟨summary, _, ?_, rfl⟩
  rfl

theorem run_installing {α : Type} {op : Operation α} {a : α} (hop : op.run w = (.ok a, w')) :
    (installing p op).run w = (.ok a, w') := by
  rw [installing, run_mapFailure, hop]
  rfl

/-- A program can be installed if its executable can be copied and the directory is there. -/
theorem exists_run_installBin {name : String} {fs : FileSystem}
    (hps : ws.installedExecutables = [p]) (hname : (ws.locate p).fileName? = some name)
    (hbuild : (ws.buildFor h request .programs).run w = (.ok (), w₁))
    (hdir : w₁.files.pathExists h.cwd (ws.binDirectory request))
    (hcopy : (FileTask.copy h.cwd (ws.locate p) (ws.installedAs request p)).exec w₁.files =
      (.ok (), fs)) :
    ∃ t : World, t.files = fs ∧
      (ws.installBin h request).run w = (.ok [ws.installedAs request p], t) := by
  have hdst : ws.installedAs request p = ws.binDirectory request / ⟨name⟩ := by
    rw [installedAs, hname, Option.getD_some]
  have hmake : (ws.installDirectory h request "bin").run w₁ =
      (.ok (ws.binDirectory request), w₁) := by
    refine (run_bind_of_ok (run_installing (BuildSite.run_onFiles
      (BuildSite.exec_ensureDirectory hdir)))).trans ?_
    rfl
  have hinto : (copyInto h (ws.locate p) (ws.binDirectory request)).run w₁ =
      (.ok (ws.installedAs request p), { w₁ with files := fs }) := by
    unfold copyInto
    rw [hname]
    dsimp only
    rw [← hdst, run_bind_of_ok (BuildSite.run_onFiles hcopy)]
    rfl
  let t : World :=
    (World.log .info s!"installed {(ws.installedAs request p).text}" { w₁ with files := fs }).2
  have hfile : (installFile h (ws.locate p) (ws.binDirectory request)).run w₁ =
      (.ok (ws.installedAs request p), t) := by
    unfold installFile
    rw [run_bind_of_ok (run_installing hinto)]
    rfl
  refine ⟨t, rfl, ?_⟩
  unfold installBin
  rw [run_bind_of_ok hbuild, run_bind_of_ok hmake, hps, List.mapM_cons, run_bind_of_ok hfile]
  rfl

/-! ## A program of a module that is called like the directory of programs -/

/-- A project with one program, in the module `bin`. -/
def toolProject : Workspace where
  root := ⟨"/demo"⟩
  manifest := { name := "demo", modules := ["bin"] }
  mode := .project
  plan :=
    { project := "demo"
      modules := SortedMap.insert ∅ ⟨"bin"⟩ ()
      programs := SortedSet.ofList [⟨⟨"bin"⟩, "tool"⟩] }
  controlFiles := [⟨"Stratum.toml"⟩, ⟨"bin/module.toml"⟩]

/-- Its manifests. -/
def toolFiles : Reader := fun p =>
  if p = ⟨"/demo/Stratum.toml"⟩ then .ok "[project]\nname = \"demo\"\nmodules = [\"bin\"]\n"
  else if p = ⟨"/demo/bin/module.toml"⟩ then .ok "programs = [\"tool\"]\n"
  else .error .noEntry

theorem load_tool : (load toolFiles ⟨"/demo/Stratum.toml"⟩ .project).2 = .ok toolProject :=
  load_eq_ok (by decide +kernel)

def toolGraph : ArtifactGraph :=
  (ArtifactGraph.constructed toolProject.plan toolProject.fileNames .everyLibrary
    toolProject.mode).toOption.getD {}

theorem constructs_tool : toolProject.Constructs toolGraph
    [(8, 7), (0, 7), (2, 7), (7, 6), (6, 5)] 9 := ArtifactGraph.constructs_of_computed (by decide)

theorem graph_tool : toolProject.graph.2 = .ok toolGraph :=
  graph_of_constructs constructs_tool (by cbv)

def toolHost : Host :=
  ⟨[], SortedMap.insert ∅ "CXX" "/cxx", fun _ files => (.error .noEntry, files)⟩

/-- The program has been built, and another has been installed in `out` before. -/
def toolOnDisk : World :=
  let directory : FileEntry := ⟨.directory, directoryMode, 1, true, none⟩
  let file (bytes : List UInt8) : FileEntry := ⟨.file bytes, 0o755, 1, true, none⟩
  let entries : List (Location × FileEntry) :=
    [(["cxx"], file []), (["demo"], directory), (["demo", "bin"], directory),
      (["demo", "bin", "tool.cpp"], file []), (["demo", "bin", "tool.o"], file []),
      (["demo", "bin", "tool"], file [1]), (["demo", "out"], directory),
      (["demo", "out", "bin"], directory), (["demo", "out", "bin", "tool"], file [0])]
  { files := { entries := SortedMap.insertAll ∅ entries } }

theorem linkFree_toolOnDisk : LinkFree toolOnDisk.files := linkFree_of_entries (by decide)

theorem coherent_toolOnDisk : toolOnDisk.files.Coherent := coherent_of_entries (by decide)

theorem lookups_toolOnDisk :
    (∀ p ∈ [(⟨"bin/tool.cpp"⟩ : Path), ⟨"bin/tool.o"⟩, ⟨"bin/tool"⟩],
        toolOnDisk.files.modified? [] (toolProject.locate p) = some 1) ∧
      ¬ toolOnDisk.files.pathExists [] (ToolchainConfig.projectFile ⟨"/demo"⟩) ∧
      toolOnDisk.files.isExecutable [] ⟨"/cxx"⟩ ∧
      toolOnDisk.files.pathExists [] ⟨"/demo/out/bin"⟩ ∧
      toolOnDisk.files.pathExists [] ⟨"/demo/./bin"⟩ ∧
      toolOnDisk.files.lookup [] ⟨"/demo/bin/tool"⟩ =
        .ok (["demo", "bin", "tool"], ⟨.file [1], 0o755, 1, true, none⟩) ∧
      toolOnDisk.files.lookup [] ⟨"/demo/./bin/tool"⟩ =
        .ok (["demo", "bin", "tool"], ⟨.file [1], 0o755, 1, true, none⟩) ∧
      toolOnDisk.files.lookup [] ⟨"/demo/out/bin/tool"⟩ =
        .ok (["demo", "out", "bin", "tool"], ⟨.file [0], 0o755, 1, true, none⟩) := by
  simp only [isExecutable, isFile, modified?, pathExists, lookup?, lookup,
    resolve_eq_descend linkFree_toolOnDisk]
  decide

theorem settings_tool :
    toolProject.settings toolHost toolOnDisk.files = .ok { cxx := some "/cxx" } := by
  have hnone : ¬ toolOnDisk.files.pathExists toolHost.cwd
      (ToolchainConfig.projectFile toolProject.root) := lookups_toolOnDisk.2.1
  simp only [settings, ToolchainConfig.loadMerged, if_neg hnone]
  rfl

theorem nodes_tool : ∀ n < 9,
    (∀ p ∈ (toolGraph.node n).path,
      p ∈ [(⟨"bin/tool.cpp"⟩ : Path), ⟨"bin/tool.o"⟩, ⟨"bin/tool"⟩]) ∧
      ∀ tool ∈ BuildSite.tool? (.ofConfig { cxx := some "/cxx" }) (toolGraph.node n).action,
        tool = "/cxx" := by decide

theorem run_buildFor_tool (request : InstallRequest) :
    ∃ t : World, t.files = toolOnDisk.files ∧
      (toolProject.buildFor toolHost request .programs).run toolOnDisk = (.ok (), t) := by
  have hsize := constructs_tool.size
  obtain ⟨hmodified, -, hcxx, -⟩ := lookups_toolOnDisk
  have htools : missingTools toolHost toolOnDisk.files (BuildSite.requiredTools
      (.ofConfig { cxx := some "/cxx" }) toolGraph 2) = [] := by
    refine List.filter_eq_nil_iff.mpr fun tool htool => ?_
    obtain ⟨n, -, hn⟩ := List.mem_filterMap.mp (SortedSet.mem_of_mem_ofList htool)
    have hlt : n < 9 := by
      rw [← hsize]
      refine ArtifactGraph.lt_size_of_ne_default fun hdefault => ?_
      rw [hdefault] at hn
      cases hn
    obtain rfl := (nodes_tool n hlt).2 tool hn
    have hcandidates : programCandidates standardSearchPath "/cxx" = [⟨"/cxx"⟩] := by rfl
    have hfound : toolHost.hasProgram toolOnDisk.files "/cxx" := by
      show (programCandidates standardSearchPath "/cxx").any
        (toolOnDisk.files.isExecutable [] ·) = true
      rw [hcandidates, List.any_cons, hcxx, Bool.true_or]
    rw [hfound]
    exact nofun
  have htime : ∀ n p, (toolGraph.node n).path = some p →
      ((BuildSite.ofConfig toolProject.root { cxx := some "/cxx" } none).workbench
        toolHost).modified? p toolOnDisk = some 1 := fun n p hp => by
    have hlt : n < 9 := hsize ▸ ArtifactGraph.lt_size_of_path hp
    exact hmodified p ((nodes_tool n hlt).1 p hp)
  have hbuilt : ∃ summary t, t.files = toolOnDisk.files ∧
      (toolProject.build toolHost
        ⟨Aggregate.programs.name, request.jobs, request.verbose⟩).run toolOnDisk =
          (.ok summary, t) :=
    run_build_of_upToDate ⟨graph_tool, rfl, ⟨_, settings_tool, rfl⟩, htools⟩
      (by rw [hsize]; decide)
      fun n _ p hp => ⟨1, htime n p hp, fun _ d _ q hq => ⟨1, htime d q hq, le_rfl⟩⟩
  obtain ⟨summary, t, hfiles, hbuild⟩ := hbuilt
  refine ⟨t, hfiles, ?_⟩
  unfold buildFor
  rw [discard_eq_bind, run_bind_of_ok hbuild]
  rfl

def installingTo (prefixPath : Path) : InstallRequest := { destination := some prefixPath }

theorem executables_tool : toolProject.installedExecutables = [⟨"bin/tool"⟩] ∧
    toolProject.locate ⟨"bin/tool"⟩ = ⟨"/demo/bin/tool"⟩ := by decide

theorem transfers_tool_out :
    toolProject.binDirectory (installingTo ⟨"out"⟩) = ⟨"/demo/out/bin"⟩ ∧
      toolProject.transferOf (installingTo ⟨"out"⟩) ⟨"bin/tool"⟩ =
        ⟨⟨"/demo/bin/tool"⟩, ⟨"/demo/out/bin/tool"⟩⟩ := by decide

theorem transfers_tool_inPlace :
    toolProject.binDirectory (installingTo ⟨"."⟩) = ⟨"/demo/./bin"⟩ ∧
      toolProject.transferOf (installingTo ⟨"."⟩) ⟨"bin/tool"⟩ =
        ⟨⟨"/demo/bin/tool"⟩, ⟨"/demo/./bin/tool"⟩⟩ := by decide

/-- The program can be installed over a file that is there, and both keep their places. -/
theorem run_installBin_tool {request : InstallRequest} {dir dst : Path} {l : Location}
    {d : FileEntry} (hbin : toolProject.binDirectory request = dir)
    (htransfer : toolProject.transferOf request ⟨"bin/tool"⟩ = ⟨⟨"/demo/bin/tool"⟩, dst⟩)
    (hdir : toolOnDisk.files.pathExists [] dir)
    (hdst : toolOnDisk.files.lookup [] dst = .ok (l, d)) (hd : d.isFile) (hmay : d.mayWrite)
    (hown : d.own) : ∃ w₁ w' : World, w₁.files = toolOnDisk.files ∧
      (toolProject.buildFor toolHost request .programs).run toolOnDisk = (.ok (), w₁) ∧
      (toolProject.installBin toolHost request).run toolOnDisk = (.ok [dst], w') ∧
      Extended toolOnDisk.files w'.files ∧
      w'.files.locate? [] ⟨"/demo/bin/tool"⟩ = some ["demo", "bin", "tool"] ∧
      w'.files.locate? [] dst = some l := by
  obtain ⟨w₁, hfiles, hbuild⟩ := run_buildFor_tool request
  obtain ⟨hexecutables, hlocate⟩ := executables_tool
  have hinstalledAs : toolProject.installedAs request ⟨"bin/tool"⟩ = dst :=
    congrArg Transfer.destination htransfer
  have hsrc := lookups_toolOnDisk.2.2.2.2.2.1
  obtain ⟨fs, hcopy⟩ := FileTask.exists_exec_copy coherent_toolOnDisk standing_nil hsrc
    (by decide) (by decide) hdst hd hmay hown
  rw [← hfiles, ← hbin] at hdir
  rw [← hfiles, ← hinstalledAs, ← hlocate] at hcopy
  obtain ⟨w', -, hinstall⟩ := exists_run_installBin (h := toolHost) hexecutables
    (by decide : (toolProject.locate ⟨"bin/tool"⟩).fileName? = some "tool") hbuild hdir hcopy
  have hextended := extended_of_installBin hbuild hinstall (hfiles ▸ coherent_toolOnDisk)
    standing_nil
  rw [hfiles] at hextended
  rw [hinstalledAs] at hinstall
  exact ⟨w₁, w', hfiles, hbuild, hinstall, hextended,
    hextended.locate?_eq standing_nil (locate?_eq_some_iff.mpr ⟨_, hsrc⟩),
    hextended.locate?_eq standing_nil (locate?_eq_some_iff.mpr ⟨_, hdst⟩)⟩

theorem contents?_toolOnDisk :
    toolOnDisk.files.contents? [] ⟨"/demo/bin/tool"⟩ = some [1] ∧
      toolOnDisk.files.contents? [] ⟨"/demo/out/bin/tool"⟩ = some [0] := by
  obtain ⟨-, -, -, -, -, hsrc, -, hdst⟩ := lookups_toolOnDisk
  rw [contents?_of_locate? (locate?_eq_some_iff.mpr ⟨_, hsrc⟩), bytesAt?_of_at? (at?_of_lookup hsrc),
    contents?_of_locate? (locate?_eq_some_iff.mpr ⟨_, hdst⟩), bytesAt?_of_at? (at?_of_lookup hdst)]
  exact ⟨rfl, rfl⟩

/-- Into a directory of its own the program is installed faithfully, in place of the one that was
installed there before. -/
theorem installsFaithfully_iff_out : ∃ w₁ w' : World,
    (toolProject.buildFor toolHost (installingTo ⟨"out"⟩) .programs).run toolOnDisk =
        (.ok (), w₁) ∧
      (toolProject.installBin toolHost (installingTo ⟨"out"⟩)).run toolOnDisk =
        (.ok [⟨"/demo/out/bin/tool"⟩], w') ∧
      w₁.files.contents? [] ⟨"/demo/out/bin/tool"⟩ = some [0] ∧
      w'.files.contents? [] ⟨"/demo/out/bin/tool"⟩ = some [1] ∧
      toolProject.InstallsFaithfully toolHost (installingTo ⟨"out"⟩) w₁.files w'.files := by
  obtain ⟨hbin, htransfer⟩ := transfers_tool_out
  obtain ⟨-, -, -, hdir, -, -, -, hdst⟩ := lookups_toolOnDisk
  obtain ⟨hbuilt, hbefore⟩ := contents?_toolOnDisk
  obtain ⟨w₁, w', hfiles, hbuild, hinstall, hextended, hsrc', hdst'⟩ :=
    run_installBin_tool hbin htransfer hdir hdst (by decide) (by decide) rfl
  have htransfers : toolProject.transfers (installingTo ⟨"out"⟩) =
      [⟨⟨"/demo/bin/tool"⟩, ⟨"/demo/out/bin/tool"⟩⟩] := by
    rw [transfers, executables_tool.1, List.map_singleton, htransfer]
  have hcoherent : w₁.files.Coherent := hfiles ▸ coherent_toolOnDisk
  obtain ⟨-, hiff, -⟩ := installsFaithfully_iff hbuild hinstall hcoherent standing_nil
  simp only [htransfers, List.mem_singleton, forall_eq, Undisturbed, hfiles] at hiff
  have hapart : ¬ w'.files.SameFile toolHost.cwd ⟨"/demo/out/bin/tool"⟩ ⟨"/demo/bin/tool"⟩ := by
    refine (sameFile_iff hdst' hsrc').not.mpr ?_
    rw [hextended.oneFile_iff]
    decide
  have hfaithful : toolProject.InstallsFaithfully toolHost (installingTo ⟨"out"⟩)
      toolOnDisk.files w'.files := by
    refine (hiff hapart).mpr ⟨?_, hextended.isSome_contents? standing_nil ?_, fun _ => trivial⟩
    · exact Option.isSome_iff_exists.mpr ⟨_, hbuilt⟩
    · exact Option.isSome_iff_exists.mpr ⟨_, hbefore⟩
  have hdelivered := installsFaithfully_iff_delivered.mp hfaithful
  rw [htransfers] at hdelivered
  obtain ⟨bytes, hsource, hinstalled, -⟩ := hdelivered _ List.mem_cons_self
  cases hbuilt.symm.trans hsource
  refine ⟨w₁, w', hbuild, hinstall, ?_, hinstalled, ?_⟩
  · rw [hfiles, hbefore]
  · rw [hfiles]
    exact hfaithful

/-- If the prefix is the project itself, the program is installed where it lies: the installation
succeeds, and the executable is empty afterwards. -/
theorem not_installsFaithfully_inPlace :
    (load toolFiles ⟨"/demo/Stratum.toml"⟩ .project).2 = .ok toolProject ∧
      toolProject.graph.2 = .ok toolGraph ∧ ∃ w₁ w' : World,
        (toolProject.buildFor toolHost (installingTo ⟨"."⟩) .programs).run toolOnDisk =
            (.ok (), w₁) ∧
          (toolProject.installBin toolHost (installingTo ⟨"."⟩)).run toolOnDisk =
            (.ok [⟨"/demo/./bin/tool"⟩], w') ∧
          w₁.files.contents? [] ⟨"/demo/bin/tool"⟩ = some [1] ∧
          w'.files.contents? [] ⟨"/demo/bin/tool"⟩ = some [] ∧
          w'.files.contents? [] ⟨"/demo/./bin/tool"⟩ = some [] ∧
          ¬ toolProject.InstallsFaithfully toolHost (installingTo ⟨"."⟩) w₁.files w'.files := by
  obtain ⟨hbin, htransfer⟩ := transfers_tool_inPlace
  obtain ⟨-, -, -, -, hdir, -, hdst, -⟩ := lookups_toolOnDisk
  obtain ⟨hbuilt, -⟩ := contents?_toolOnDisk
  obtain ⟨w₁, w', hfiles, hbuild, hinstall, hextended, hsrc', hdst'⟩ :=
    run_installBin_tool hbin htransfer hdir hdst (by decide) (by decide) rfl
  have htransfers : toolProject.transfers (installingTo ⟨"."⟩) =
      [⟨⟨"/demo/bin/tool"⟩, ⟨"/demo/./bin/tool"⟩⟩] := by
    rw [transfers, executables_tool.1, List.map_singleton, htransfer]
  obtain ⟨-, fs, hfurnished, hcopied⟩ := copied_of_installBin hbuild hinstall
  have hc := hfurnished.coherent (hfiles ▸ coherent_toolOnDisk)
  have hs : Standing fs toolHost.cwd := standing_nil
  rw [htransfers] at hcopied
  have hself : w'.files.SameFile toolHost.cwd ⟨"/demo/./bin/tool"⟩ ⟨"/demo/bin/tool"⟩ :=
    (sameFile_iff hdst' hsrc').mpr (.inl rfl)
  have hlost : w'.files.contents? toolHost.cwd ⟨"/demo/bin/tool"⟩ = some [] :=
    hcopied.contents?_of_self hc hs List.mem_cons_self hself fun t ht _ => by
      obtain rfl := List.mem_singleton.mp ht
      exact hself
  have hinstalled : w'.files.contents? toolHost.cwd ⟨"/demo/./bin/tool"⟩ = some [] :=
    ((hcopied.extended hc hs).2.contents?_eq hself).trans hlost
  refine ⟨load_tool, graph_tool, w₁, w', hbuild, hinstall, hfiles ▸ hbuilt, hlost, hinstalled,
    fun hfaithful => ?_⟩
  have hdelivered := installsFaithfully_iff_delivered.mp hfaithful
  rw [htransfers] at hdelivered
  obtain ⟨bytes, hsource, -, hleft⟩ := hdelivered _ List.mem_cons_self
  rw [hfiles] at hsource
  cases hbuilt.symm.trans hsource
  cases hlost.symm.trans hleft

end Workspace

end ModularBuild
