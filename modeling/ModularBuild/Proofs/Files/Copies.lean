import ModularBuild.Proofs.Files.Contents

/-!
# What copies leave

A copy empties its destination before it reads its source (`FileTask.copy_spec`), so a file that is
copied onto itself is lost (`Copied.contents?_of_self`). Where that does not happen, a run of copies
brings to every destination what was in the source, and keeps the source, exactly when no copy
disturbs another (`Copied.delivered_iff`).
-/

namespace ModularBuild

namespace FileTask

open FileSystem

variable {fs fs' : FileSystem} {l : Location} {cwd : Location} {p src dst : Path}
  {bytes : List UInt8}

theorem exec_get (fs : FileSystem) : (get : FileTask FileSystem).exec fs = (.ok fs, fs) := rfl

theorem exec_ask {α : Type} (f : FileSystem → Except FileError α) (fs : FileSystem) :
    (ask f).exec fs = (f fs, fs) := by
  unfold ask
  simp only [exec_bind, exec_get]
  cases f fs <;> rfl

theorem fill_spec {mode : Nat} (hc : fs.Coherent) (hs : Standing fs cwd)
    (hl : fs.locate? cwd p = some l) (h : (fill cwd p mode bytes).exec fs = (.ok (), fs')) :
    (fs.bytesAt? l = some [] → Fills l bytes fs fs') ∧ (fs.bytesAt? l = none → fs' = fs) := by
  obtain ⟨e, he⟩ := locate?_eq_some_iff.mp hl
  have hat : fs.at? l = some e := at?_of_lookup he
  have hbytes : fs.bytesAt? l = e.bytes? := bytesAt?_of_at? hat
  have hbare : e.bytes? = none → (fs.bytesAt? l = some [] → Fills l bytes fs fs') := by
    intro hnone hempty
    rw [hbytes, hnone] at hempty
    cases hempty
  unfold fill at h
  rw [exec_bind, exec_ask, he] at h
  cases hcontent : e.content with
  | file old =>
    have hold : fs.bytesAt? l = some old := hbytes.trans (FileEntry.bytes?_eq_some_iff.mpr hcontent)
    refine ⟨fun hempty => ?_, fun hnone => by simp [hold] at hnone⟩
    simp only [hcontent, exec_bind, exec_change] at h
    cases hset : fs.setMode cwd p mode with
    | error err =>
      rw [hset] at h
      cases h
    | ok fs₁ =>
      have hfills : Fills l [] fs fs₁ := fills_setMode hc hl hempty hset
      simp only [hset] at h
      by_cases hnil : bytes.isEmpty
      · rw [if_pos hnil] at h
        cases h
        rwa [List.isEmpty_iff.mp hnil]
      · obtain ⟨e₁, he₁⟩ := locate?_eq_some_iff.mp (hfills.locate?_eq hs hl)
        rw [if_neg hnil, exec_bind, exec_ask, he₁] at h
        simp only [exec_change] at h
        cases h
        have hfile₁ : e₁.isFile :=
          isFile_of_bytesAt? (at?_of_lookup he₁) (by rw [hfills.bytesAt?_self]; rfl)
        exact hfills.trans (fills_overwrite (hfills.coherent hc) (at?_of_lookup he₁) hfile₁)
  | device d =>
    refine ⟨hbare (by simp [FileEntry.bytes?, hcontent]), fun _ => ?_⟩
    simp only [hcontent] at h
    cases d with
    | full =>
      dsimp only at h
      split at h <;> cases h
      rfl
    | null | zero | descriptor n =>
      cases h
      rfl
  | directory | link target =>
    refine ⟨hbare (by simp [FileEntry.bytes?, hcontent]), fun _ => ?_⟩
    simp only [hcontent] at h
    cases h
    rfl

theorem exec_copy {a : Location} {e : FileEntry} (hsrc : fs.lookup cwd src = .ok (a, e))
    (hmay : e.mayRead) (hfile : e.isFile) : (copy cwd src dst).exec fs =
      match fs.write cwd dst [] e.mode with
      | .ok fs₁ => (fill cwd dst e.mode ((fs₁.contents? cwd src).getD [])).exec fs₁
      | .error err => (.error err, fs) := by
  obtain ⟨old, hold⟩ := Option.isSome_iff_exists.mp (FileEntry.isFile_iff.mp hfile)
  unfold copy
  rw [exec_bind, exec_ask, hsrc]
  simp only [hmay, Bool.not_true, Bool.false_eq_true, ↓reduceIte,
    FileEntry.bytes?_eq_some_iff.mp hold, exec_bind, exec_change]
  cases fs.write cwd dst [] e.mode with
  | error err => rfl
  | ok fs₁ =>
    simp only [exec_get, contents?_eq_bind_lookup?]
    rcases fs₁.lookup? cwd src with _ | ⟨_ | _ | _ | _, _, _, _, _⟩ <;> rfl

theorem exists_of_exec_copy (h : (copy cwd src dst).exec fs = (.ok (), fs')) :
    ∃ a e, fs.lookup cwd src = .ok (a, e) ∧ e.mayRead ∧ e.isFile := by
  unfold copy at h
  rw [exec_bind, exec_ask] at h
  cases hsrc : fs.lookup cwd src with
  | error err =>
    rw [hsrc] at h
    cases h
  | ok found =>
    obtain ⟨a, e⟩ := found
    rw [hsrc] at h
    refine ⟨a, e, rfl, ?_⟩
    cases hmay : e.mayRead with
    | false =>
      simp only [hmay] at h
      cases h
    | true =>
      cases hcontent : e.content with
      | file bytes => simp [FileEntry.isFile, hcontent]
      | directory | link target | device d =>
        simp only [hmay, hcontent] at h
        cases h

/-- A copy fills what its destination leads to from then on with what is in its source, or with
nothing if they are one file; what keeps nothing takes all that is copied to it. -/
theorem copy_spec (hc : fs.Coherent) (hs : Standing fs cwd)
    (h : (copy cwd src dst).exec fs = (.ok (), fs')) : ∃ a bytes l,
      fs.locate? cwd src = some a ∧ fs.bytesAt? a = some bytes ∧ fs'.locate? cwd dst = some l ∧
      (Fills l (if fs.OneFile l a then [] else bytes) fs fs' ∨ fs' = fs ∧ fs.bytesAt? l = none) := by
  obtain ⟨a, e, hsrc, hmay, hfile⟩ := exists_of_exec_copy h
  have hat : fs.at? a = some e := at?_of_lookup hsrc
  have ha : fs.locate? cwd src = some a := locate?_eq_some_iff.mpr ⟨e, hsrc⟩
  obtain ⟨bytes, hbytes⟩ := Option.isSome_iff_exists.mp (FileEntry.isFile_iff.mp hfile)
  have hbytesAt : fs.bytesAt? a = some bytes := (bytesAt?_of_at? hat).trans hbytes
  rw [exec_copy hsrc hmay hfile] at h
  cases hwrite : fs.write cwd dst [] e.mode with
  | error err =>
    rw [hwrite] at h
    cases h
  | ok fs₁ =>
    rw [hwrite] at h
    dsimp only at h
    obtain ⟨l, hl, hemptied | ⟨rfl, hnone⟩⟩ := write_spec hc hs hwrite
    · -- The source is read after the destination has been emptied.
      have hread : (fs₁.contents? cwd src).getD [] = if fs.OneFile l a then [] else bytes := by
        rw [contents?_of_locate? (hemptied.locate?_eq hs ha), hemptied.bytesAt?_eq, hbytesAt]
        split <;> rfl
      rw [hread] at h
      have hfills := (fill_spec (hemptied.coherent hc) (hemptied.standing hs) hl h).1
        hemptied.bytesAt?_self
      have hboth := hemptied.trans hfills
      exact ⟨a, bytes, l, ha, hbytesAt, hfills.locate?_eq (hemptied.standing hs) hl, .inl hboth⟩
    · obtain rfl := (fill_spec hc hs hl h).2 hnone
      exact ⟨a, bytes, l, ha, hbytesAt, hl, .inr ⟨rfl, hnone⟩⟩

theorem write_eq_overwrite {mode : Nat} {d : FileEntry} (hdst : fs.lookup cwd p = .ok (l, d))
    (hfile : d.isFile) (hmay : d.mayWrite) :
    fs.write cwd p bytes mode = .ok (fs.overwrite l d bytes) := by
  obtain ⟨old, hold⟩ := Option.isSome_iff_exists.mp (FileEntry.isFile_iff.mp hfile)
  simp [write, lookup_eq_ok_iff.mp hdst, bind, Except.bind, pure, Except.pure,
    FileEntry.bytes?_eq_some_iff.mp hold, hmay]

theorem exists_exec_fill {mode : Nat} {d : FileEntry} (hc : fs.Coherent) (hs : Standing fs cwd)
    (hdst : fs.lookup cwd p = .ok (l, d)) (hempty : d.content = .file []) (hown : d.own) :
    ∃ fs', (fill cwd p mode bytes).exec fs = (.ok (), fs') := by
  have hl : fs.locate? cwd p = some l := locate?_eq_some_iff.mpr ⟨d, hdst⟩
  have hbytes : fs.bytesAt? l = some [] := by
    rw [bytesAt?_of_at? (at?_of_lookup hdst), FileEntry.bytes?_eq_some_iff.mpr hempty]
  obtain ⟨fs₁, hset⟩ : ∃ fs₁, fs.setMode cwd p mode = .ok fs₁ :=
    ⟨_, by simp [setMode, hdst, bind, Except.bind, hown, pure, Except.pure]; rfl⟩
  have hfills := fills_setMode hc hl hbytes hset
  unfold fill
  rw [exec_bind, exec_ask, hdst]
  simp only [hempty, exec_bind, exec_change, hset]
  by_cases hnil : bytes.isEmpty
  · rw [if_pos hnil]
    exact ⟨_, rfl⟩
  · obtain ⟨d₁, hdst₁⟩ := locate?_eq_some_iff.mp (hfills.locate?_eq hs hl)
    rw [if_neg hnil, exec_bind, exec_ask, hdst₁]
    exact ⟨_, rfl⟩

/-- A readable file can be copied onto a writable one that belongs to the user. -/
theorem exists_exec_copy {a : Location} {e d : FileEntry} (hc : fs.Coherent) (hs : Standing fs cwd)
    (hsrc : fs.lookup cwd src = .ok (a, e)) (hread : e.mayRead) (hfile : e.isFile)
    (hdst : fs.lookup cwd dst = .ok (l, d)) (hd : d.isFile) (hwrite : d.mayWrite) (hown : d.own) :
    ∃ fs', (copy cwd src dst).exec fs = (.ok (), fs') := by
  rw [exec_copy hsrc hread hfile, write_eq_overwrite hdst hd hwrite]
  have hat := at?_of_lookup hdst
  have hfills : Fills l [] fs (fs.overwrite l d []) := fills_overwrite hc hat hd
  have hl := hfills.locate?_eq hs (locate?_eq_some_iff.mpr ⟨d, hdst⟩)
  obtain ⟨d₁, hdst₁⟩ := locate?_eq_some_iff.mp hl
  have hnil : l ≠ [] := by
    rintro rfl
    cases hat
    cases hd
  have hticked : fs.tick.at? l = some d := hat
  have hd₁ : some d₁ = some { d with
      content := .file [], mode := writtenMode d.mode, modified := fs.tick.clock } := by
    rw [← at?_of_lookup hdst₁]
    refine (at?_replace hticked ?_ hnil).trans (if_pos (.inl rfl))
    rfl
  cases hd₁
  exact exists_exec_fill (hfills.coherent hc) (hfills.standing hs) hdst₁ rfl hown

end FileTask

/-! ## Runs of copies -/

/-- A file to copy, and where to. -/
structure Transfer where
  source : Path
  destination : Path
deriving DecidableEq, Repr

open FileSystem

/-- The files have been copied one after the other. -/
inductive Copied (cwd : Location) : List Transfer → FileSystem → FileSystem → Prop where
  | nil {fs : FileSystem} : Copied cwd [] fs fs
  | cons {fs fs₁ fs' : FileSystem} {t : Transfer} {ts : List Transfer}
    (head : (FileTask.copy cwd t.source t.destination).exec fs = (.ok (), fs₁))
    (tail : Copied cwd ts fs₁ fs') : Copied cwd (t :: ts) fs fs'

/-- What was in the source is there after all, and in the destination. -/
def Delivered (fs fs' : FileSystem) (cwd : Location) (t : Transfer) : Prop :=
  ∃ bytes, fs.contents? cwd t.source = some bytes ∧
    fs'.contents? cwd t.destination = some bytes ∧ fs'.contents? cwd t.source = some bytes

/-- The source is a file, the destination has become one, and every transfer to that file or from it
has a source of the same content. -/
def Undisturbed (fs fs' : FileSystem) (cwd : Location) (ts : List Transfer) (t : Transfer) : Prop :=
  (fs.contents? cwd t.source).isSome ∧ (fs'.contents? cwd t.destination).isSome ∧
    ∀ t' ∈ ts, fs'.SameFile cwd t.destination t'.destination ∨
      fs'.SameFile cwd t.destination t'.source →
      fs.contents? cwd t.source = fs.contents? cwd t'.source

variable {fs fs₁ fs' : FileSystem} {cwd l m : Location} {p q : Path} {t : Transfer}
  {ts : List Transfer} {bytes : List UInt8}

theorem Delivered.congr {fs₂ : FileSystem} (h : Delivered fs fs' cwd t)
    (hsource : fs₂.contents? cwd t.source = fs.contents? cwd t.source) :
    Delivered fs₂ fs' cwd t := by
  rw [Delivered, hsource]
  exact h

theorem Undisturbed.congr {fs₂ : FileSystem} (h : Undisturbed fs fs' cwd ts t) (ht : t ∈ ts)
    (hsources : ∀ t ∈ ts, fs₂.contents? cwd t.source = fs.contents? cwd t.source) :
    Undisturbed fs₂ fs' cwd ts t := by
  obtain ⟨hsource, hfile, hmeet⟩ := h
  refine ⟨by rwa [hsources t ht], hfile, fun t' ht' hor => ?_⟩
  rw [hsources t ht, hsources t' ht']
  exact hmeet t' ht' hor

section Copy

variable (hc : fs.Coherent) (hs : Standing fs cwd)
  (h : (FileTask.copy cwd t.source t.destination).exec fs = (.ok (), fs₁))
include hc hs h

theorem extended_copy : Extended fs fs₁ ∧ fs₁.Coherent := by
  obtain ⟨a, bytes, l, -, -, -, hfills | ⟨rfl, -⟩⟩ := FileTask.copy_spec hc hs h
  · exact ⟨hfills.toExtended, hfills.coherent hc⟩
  · exact ⟨.refl, hc⟩

theorem contents?_of_copy_of_not_sameFile (hext : Extended fs₁ fs')
    (hq : (fs.contents? cwd q).isSome) (hother : ¬ fs'.SameFile cwd t.destination q) :
    fs₁.contents? cwd q = fs.contents? cwd q := by
  obtain ⟨a, bytes, l, -, -, hl, hfills | ⟨rfl, -⟩⟩ := FileTask.copy_spec hc hs h
  · obtain ⟨m, hm⟩ := exists_of_isSome_contents? hq
    have hm₁ := hfills.locate?_eq hs hm
    have hs₁ := hfills.standing hs
    rw [sameFile_iff (hext.locate?_eq hs₁ hl) (hext.locate?_eq hs₁ hm₁), hext.oneFile_iff,
      hfills.oneFile_iff] at hother
    rw [contents?_of_locate? hm, contents?_of_locate? hm₁, hfills.bytesAt?_eq, if_neg hother]
  · rfl

/-- A copy to a file fills it under all its names, with nothing if it is the source. -/
theorem contents?_of_copy_of_sameFile (hext : Extended fs₁ fs')
    (hfile : (fs'.contents? cwd t.destination).isSome) (hq : (fs₁.locate? cwd q).isSome)
    (hsame : fs'.SameFile cwd t.destination q) :
    (fs'.SameFile cwd t.destination t.source → fs₁.contents? cwd q = some []) ∧
      (¬ fs'.SameFile cwd t.destination t.source →
        fs₁.contents? cwd q = fs.contents? cwd t.source) := by
  obtain ⟨a, bytes, l, ha, hbytes, hl, hfills | ⟨rfl, hnone⟩⟩ := FileTask.copy_spec hc hs h
  · obtain ⟨m, hm⟩ := Option.isSome_iff_exists.mp hq
    have hs₁ := hfills.standing hs
    have hl' := hext.locate?_eq hs₁ hl
    have ha' := hext.locate?_eq hs₁ (hfills.locate?_eq hs ha)
    rw [sameFile_iff hl' (hext.locate?_eq hs₁ hm), hext.oneFile_iff, hfills.oneFile_iff] at hsame
    rw [sameFile_iff hl' ha', hext.oneFile_iff, hfills.oneFile_iff, contents?_of_locate? hm,
      contents?_of_locate? ha, hfills.bytesAt?_eq, if_pos hsame, hbytes]
    exact ⟨fun hself => by rw [if_pos hself], fun hself => by rw [if_neg hself]⟩
  · rw [hext.contents?_eq_none hs hl hnone] at hfile
    cases hfile

theorem contents?_destination_of_copy (hext : Extended fs₁ fs')
    (hfile : (fs'.contents? cwd t.destination).isSome) :
    (fs'.SameFile cwd t.destination t.source → fs₁.contents? cwd t.destination = some []) ∧
      (¬ fs'.SameFile cwd t.destination t.source →
        fs₁.contents? cwd t.destination = fs.contents? cwd t.source) := by
  obtain ⟨a, bytes, l, -, -, hl, -⟩ := FileTask.copy_spec hc hs h
  have hl' := hext.locate?_eq ((extended_copy hc hs h).1.standing hs) hl
  exact contents?_of_copy_of_sameFile hc hs h hext hfile (by rw [hl, Option.isSome_some])
    ⟨l, l, hl', hl', .inl rfl⟩

variable (hext : Extended fs₁ fs') (hself : ¬ fs'.SameFile cwd t.destination t.source)
  (hts : ∀ t' ∈ t :: ts, Undisturbed fs fs' cwd (t :: ts) t')
include hext hself hts

/-- The first of some undisturbed copies changes nothing of a file that has the content it brings. -/
theorem contents?_of_copy (hq : (fs.contents? cwd q).isSome)
    (hsame : fs'.SameFile cwd t.destination q →
      fs.contents? cwd t.source = fs.contents? cwd q) :
    fs₁.contents? cwd q = fs.contents? cwd q := by
  by_cases hmeet : fs'.SameFile cwd t.destination q
  · have hq₁ : (fs₁.locate? cwd q).isSome := by
      obtain ⟨m, hm⟩ := exists_of_isSome_contents? ((extended_copy hc hs h).1.isSome_contents? hs hq)
      rw [hm, Option.isSome_some]
    have hfile := (hts t List.mem_cons_self).2.1
    rw [(contents?_of_copy_of_sameFile hc hs h hext hfile hq₁ hmeet).2 hself, hsame hmeet]
  · exact contents?_of_copy_of_not_sameFile hc hs h hext hq hmeet

theorem contents?_source_of_copy {t' : Transfer} (ht' : t' ∈ ts) :
    fs₁.contents? cwd t'.source = fs.contents? cwd t'.source := by
  have hmem := List.mem_cons_of_mem t ht'
  exact contents?_of_copy hc hs h hext hself hts (hts t' hmem).1 fun hmeet =>
    (hts t List.mem_cons_self).2.2 t' hmem (.inr hmeet)

theorem undisturbed_of_copy : ∀ t' ∈ ts, Undisturbed fs₁ fs' cwd ts t' := by
  intro t' ht'
  obtain ⟨hsource, hfile, hmeet⟩ := hts t' (List.mem_cons_of_mem t ht')
  have hkept : ∀ t' ∈ ts, fs₁.contents? cwd t'.source = fs.contents? cwd t'.source :=
    fun _ => contents?_source_of_copy hc hs h hext hself hts
  refine ⟨by rwa [hkept t' ht'], hfile, fun t'' ht'' hor => ?_⟩
  rw [hkept t' ht', hkept t'' ht'']
  exact hmeet t'' (List.mem_cons_of_mem t ht'') hor

end Copy

namespace Copied

theorem extended (h : Copied cwd ts fs fs') (hc : fs.Coherent) (hs : Standing fs cwd) :
    Extended fs fs' ∧ fs'.Coherent := by
  induction h with
  | nil => exact ⟨.refl, hc⟩
  | cons head tail ih =>
    obtain ⟨hext, hc₁⟩ := extended_copy hc hs head
    obtain ⟨hext', hc'⟩ := ih hc₁ (hext.standing hs)
    exact ⟨hext.trans hext', hc'⟩

/-- Undisturbed copies leave a file as it is that has the content of all that is copied to it. -/
theorem contents?_eq (h : Copied cwd ts fs fs') (hc : fs.Coherent) (hs : Standing fs cwd)
    (hself : ∀ t ∈ ts, ¬ fs'.SameFile cwd t.destination t.source)
    (hts : ∀ t ∈ ts, Undisturbed fs fs' cwd ts t) (hq : (fs.contents? cwd q).isSome)
    (hsame : ∀ t ∈ ts, fs'.SameFile cwd t.destination q →
      fs.contents? cwd t.source = fs.contents? cwd q) :
    fs'.contents? cwd q = fs.contents? cwd q := by
  induction h with
  | nil => rfl
  | @cons fs fs₁ fs' t ts head tail ih =>
    obtain ⟨hext, hc₁⟩ := extended_copy hc hs head
    have hs₁ := hext.standing hs
    obtain ⟨hself₀, hself'⟩ := List.forall_mem_cons.mp hself
    obtain ⟨hsame₀, hsame⟩ := List.forall_mem_cons.mp hsame
    have hext₁ := (tail.extended hc₁ hs₁).1
    have hq₁ := contents?_of_copy hc hs head hext₁ hself₀ hts hq hsame₀
    rw [ih hc₁ hs₁ hself' (undisturbed_of_copy hc hs head hext₁ hself₀ hts) (hq₁ ▸ hq) ?_, hq₁]
    intro t' ht' hmeet
    rw [contents?_source_of_copy hc hs head hext₁ hself₀ hts ht', hq₁]
    exact hsame t' ht' hmeet

theorem contents?_destination (h : Copied cwd ts fs fs') (hc : fs.Coherent) (hs : Standing fs cwd)
    (hself : ∀ t ∈ ts, ¬ fs'.SameFile cwd t.destination t.source)
    (hts : ∀ t ∈ ts, Undisturbed fs fs' cwd ts t) (ht : t ∈ ts) :
    fs'.contents? cwd t.destination = fs.contents? cwd t.source := by
  induction h with
  | nil => cases ht
  | @cons fs fs₁ fs' t₀ ts head tail ih =>
    obtain ⟨hext, hc₁⟩ := extended_copy hc hs head
    have hs₁ := hext.standing hs
    obtain ⟨hself₀, hself'⟩ := List.forall_mem_cons.mp hself
    have hext₁ := (tail.extended hc₁ hs₁).1
    have hts₁ := undisturbed_of_copy hc hs head hext₁ hself₀ hts
    rcases List.mem_cons.mp ht with rfl | ht
    · -- The copies that come after it do not change it.
      obtain ⟨hsource, hfile, hmeet⟩ := hts t List.mem_cons_self
      have hfilled := (contents?_destination_of_copy hc hs head hext₁ hfile).2 hself₀
      rw [tail.contents?_eq hc₁ hs₁ hself' hts₁ (by rwa [hfilled]) ?_, hfilled]
      intro t' ht' hback
      rw [contents?_source_of_copy hc hs head hext₁ hself₀ hts ht', hfilled]
      exact (hmeet t' (List.mem_cons_of_mem t ht') (.inl hback.symm)).symm
    · rw [ih hc₁ hs₁ hself' hts₁ ht, contents?_source_of_copy hc hs head hext₁ hself₀ hts ht]

/-- Of files none of which is its own destination, all are delivered exactly when no copy disturbs
another. -/
theorem delivered_iff (h : Copied cwd ts fs fs') (hc : fs.Coherent) (hs : Standing fs cwd)
    (hself : ∀ t ∈ ts, ¬ fs'.SameFile cwd t.destination t.source) :
    (∀ t ∈ ts, Delivered fs fs' cwd t) ↔ ∀ t ∈ ts, Undisturbed fs fs' cwd ts t := by
  have hc' := (h.extended hc hs).2
  constructor
  · intro hall t ht
    obtain ⟨bytes, hsource, hdestination, -⟩ := hall t ht
    refine ⟨by rw [hsource]; rfl, by rw [hdestination]; rfl, fun t' ht' hmeet => ?_⟩
    obtain ⟨bytes', hsource', hdestination', hleft'⟩ := hall t' ht'
    rw [hsource, hsource', ← hdestination]
    rcases hmeet with hmeet | hmeet
    · rw [hc'.contents?_eq hmeet, hdestination']
    · rw [hc'.contents?_eq hmeet, hleft']
  · intro hts t ht
    obtain ⟨hsource, -, -⟩ := hts t ht
    obtain ⟨bytes, hbytes⟩ := Option.isSome_iff_exists.mp hsource
    refine ⟨bytes, hbytes, ?_, ?_⟩
    · rw [h.contents?_destination hc hs hself hts ht, hbytes]
    · rw [h.contents?_eq hc hs hself hts hsource, hbytes]
      exact fun t' ht' hmeet => (hts t' ht').2.2 t ht (.inr hmeet)

theorem isSome_source (h : Copied cwd ts fs fs') (hc : fs.Coherent) (hs : Standing fs cwd)
    (ht : t ∈ ts) : (fs'.contents? cwd t.source).isSome := by
  induction h with
  | nil => cases ht
  | @cons fs fs₁ fs' t₀ ts head tail ih =>
    obtain ⟨hext, hc₁⟩ := extended_copy hc hs head
    have hs₁ := hext.standing hs
    rcases List.mem_cons.mp ht with rfl | ht
    · obtain ⟨a, bytes, l, ha, hbytes, -⟩ := FileTask.copy_spec hc hs head
      refine (hext.trans (tail.extended hc₁ hs₁).1).isSome_contents? hs ?_
      rw [contents?_of_locate? ha, hbytes, Option.isSome_some]
    · exact ih hc₁ hs₁ ht

/-- A file that is empty stays so if only files are copied to it that are their own destination. -/
theorem contents?_of_empty (h : Copied cwd ts fs fs') (hc : fs.Coherent) (hs : Standing fs cwd)
    (hq : fs.contents? cwd q = some [])
    (hself : ∀ t ∈ ts, fs'.SameFile cwd t.destination q →
      fs'.SameFile cwd t.destination t.source) : fs'.contents? cwd q = some [] := by
  induction h with
  | nil => exact hq
  | @cons fs fs₁ fs' t ts head tail ih =>
    obtain ⟨hext, hc₁⟩ := extended_copy hc hs head
    have hs₁ := hext.standing hs
    obtain ⟨hself₀, hself'⟩ := List.forall_mem_cons.mp hself
    obtain ⟨hext₁, hc'⟩ := tail.extended hc₁ hs₁
    have hfile : (fs.contents? cwd q).isSome := by rw [hq, Option.isSome_some]
    refine ih hc₁ hs₁ ?_ hself'
    by_cases hmeet : fs'.SameFile cwd t.destination q
    · have hfile₁ := hext.isSome_contents? hs hfile
      obtain ⟨m, hm⟩ := exists_of_isSome_contents? hfile₁
      have hfile' : (fs'.contents? cwd t.destination).isSome := by
        rw [hc'.contents?_eq hmeet]
        exact hext₁.isSome_contents? hs₁ hfile₁
      exact (contents?_of_copy_of_sameFile hc hs head hext₁ hfile' (by rw [hm, Option.isSome_some])
        hmeet).1 (hself₀ hmeet)
    · rw [contents?_of_copy_of_not_sameFile hc hs head hext₁ hfile hmeet, hq]

/-- A file that is its own destination is lost, unless another is copied there. -/
theorem contents?_of_self (h : Copied cwd ts fs fs') (hc : fs.Coherent) (hs : Standing fs cwd)
    (ht : t ∈ ts) (hself : fs'.SameFile cwd t.destination t.source)
    (honly : ∀ t' ∈ ts, fs'.SameFile cwd t'.destination t.destination →
      fs'.SameFile cwd t'.destination t'.source) : fs'.contents? cwd t.source = some [] := by
  have hfile := h.isSome_source hc hs ht
  rw [← (h.extended hc hs).2.contents?_eq hself] at hfile ⊢
  induction h with
  | nil => cases ht
  | @cons fs fs₁ fs' t₀ ts head tail ih =>
    obtain ⟨hext, hc₁⟩ := extended_copy hc hs head
    have hs₁ := hext.standing hs
    have honly' := fun t' ht' => honly t' (List.mem_cons_of_mem t₀ ht')
    rcases List.mem_cons.mp ht with rfl | ht
    · obtain ⟨hext₁, -⟩ := tail.extended hc₁ hs₁
      have hlost := (contents?_destination_of_copy hc hs head hext₁ hfile).1 hself
      exact tail.contents?_of_empty hc₁ hs₁ hlost honly'
    · exact ih hc₁ hs₁ ht hself honly' hfile

end Copied

end ModularBuild
