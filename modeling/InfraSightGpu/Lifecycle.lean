import InfraSightGpu.Attachment
import InfraSightGpu.Config

namespace InfraSightGpu.Lifecycle

open InfraSightGpu.Events InfraSightGpu.Config InfraSightGpu.Attachment

/-- What a loader opens: the programs and maps of `GpuprintObjects` by their
fields, its links by their position in `Up`, and the reader of the ring. -/
inductive Handle where
  | program (field : String)
  | map (field : String)
  | link (i : ℕ)
  | reader
deriving DecidableEq

def gpuprintPrograms : List Handle :=
  ["HandleCuCtxSync", "HandleCuCtxSyncRet", "HandleCuLaunchkernel", "HandleCuMemAlloc",
    "HandleCuMemcpyDtoh", "HandleCuMemcpyDtohAsync", "HandleCuMemcpyHtod",
    "HandleCuMemcpyHtodAsync", "HandleCuStreamSync", "HandleCuStreamSynchronizeRet",
    "HandleProcessExit", "WatchdogIoctl"].map .program

def gpuprintMaps : List Handle :=
  ["GpuRingbuf", "IoctlWatchdogMap", "StartEventsStream"].map .map

/-- The answers that one loader gets: which calls succeed, and of which handles
`Close` returns no error. -/
structure LoaderHost where
  removeMemlock : Bool
  loadGpuprintObjects : Bool
  openExecutable : GoString → Option Attachment.Host
  newReader : Bool
  closes : Handle → Bool

/-- `objs` and `rb` say whether the pointers are set. -/
structure GpuprintLoader where
  objs : Bool
  up : List Link
  rb : Bool

/-- What the closers close one after the other, and whether there was no error;
the first error is returned. -/
def gpuprintClose : List (List Handle × Bool) → List Handle × Bool
  | [] => ([], true)
  | closer :: closers =>
    if closer.2 then
      let rest := gpuprintClose closers
      (closer.1 ++ rest.1, rest.2)
    else closer

def closeHandles (host : LoaderHost) (handles : List Handle) : List Handle × Bool :=
  gpuprintClose (handles.map fun h => ([h], host.closes h))

def closeObjects (host : LoaderHost) : List Handle × Bool :=
  gpuprintClose [closeHandles host gpuprintPrograms, closeHandles host gpuprintMaps]

def links (up : List Link) : List Handle := (List.range up.length).map .link

def close (host : LoaderHost) (gt : GpuprintLoader) : List Handle :=
  (if gt.objs then (closeObjects host).1 else []) ++ links gt.up ++
    if gt.rb then [.reader] else []

/-- What the making of a loader returned, and which handles it opened and called
`Close` of. -/
structure Made where
  loader : Option GpuprintLoader
  opened : List Handle
  closed : List Handle

def newGpuprinterLoader (host : LoaderHost) (cfg : Programsconfig) : Made :=
  if !host.removeMemlock then ⟨none, [], []⟩
  else if !host.loadGpuprintObjects then ⟨none, [], []⟩
  else
    let gput : GpuprintLoader := ⟨true, [], false⟩
    let opened := gpuprintPrograms ++ gpuprintMaps
    match host.openExecutable cfg.cudaLibraryPath with
    | none => ⟨none, opened, close host gput⟩
    | some ex =>
      let gput := { gput with up := attachments ex }
      let opened := opened ++ links gput.up
      if !host.newReader then ⟨none, opened, close host gput⟩
      else ⟨some { gput with rb := true }, opened ++ [.reader], []⟩

def loaderFingerprint : GoString := bytes "fingerprint"

def newEbpfGpuLoaders (host : LoaderHost) (programs : GoString) (cfg : Programsconfig) : Made :=
  if programs = loaderFingerprint then newGpuprinterLoader host cfg else ⟨none, [], []⟩

def makeLoaders (hosts : ℕ → LoaderHost) (cfg : Programsconfig) : List (ℕ × Made) :=
  cfg.enableProbes.zipIdx.map fun probe =>
    (probe.2, newEbpfGpuLoaders (hosts probe.2) probe.1 cfg)

def lds (hosts : ℕ → LoaderHost) (cfg : Programsconfig) : List (ℕ × GpuprintLoader) :=
  (makeLoaders hosts cfg).filterMap fun m => m.2.loader.map fun gt => (m.1, gt)

def opened (hosts : ℕ → LoaderHost) (cfg : Programsconfig) : List (ℕ × Handle) :=
  (makeLoaders hosts cfg).flatMap fun m => m.2.opened.map fun h => (m.1, h)

/-- Everything that `main` closes until it ends: what failed loaders close, and,
when there is a client, the loaders in reverse order once its `Run` returns. A
client that cannot be made ends the program without the deferred calls. -/
def closed (hosts : ℕ → LoaderHost) (cfg : Programsconfig) (client : Bool) : List (ℕ × Handle) :=
  ((makeLoaders hosts cfg).flatMap fun m => m.2.closed.map fun h => (m.1, h)) ++
    if client then
      (lds hosts cfg).reverse.flatMap fun l => (close (hosts l.1) l.2).map fun h => (l.1, h)
    else []

section Objects

/-- No `Close` of a program or a map fails, but that of the last map may. -/
def ClosesObjects (host : LoaderHost) : Prop :=
  ∀ h ∈ (gpuprintPrograms ++ gpuprintMaps).dropLast, host.closes h

theorem initial_closeHandles (host : LoaderHost) (handles : List Handle) :
    (closeHandles host handles).1 <+: handles := by
  induction handles with
  | nil => exact List.prefix_rfl
  | cons h handles ih =>
    rw [closeHandles, List.map_cons, gpuprintClose]
    by_cases hc : host.closes h
    · rw [if_pos hc]
      exact List.prefix_cons_inj h |>.mpr ih
    · rw [if_neg hc]
      exact List.prefix_append [h] handles

theorem closeHandles_snd (host : LoaderHost) (handles : List Handle) :
    (closeHandles host handles).2 ↔ ∀ h ∈ handles, host.closes h := by
  induction handles with
  | nil => simp [closeHandles, gpuprintClose]
  | cons h handles ih =>
    rw [closeHandles, List.map_cons, gpuprintClose, List.forall_mem_cons, ← ih]
    by_cases hc : host.closes h
    · rw [if_pos hc]
      simp [hc, closeHandles]
    · rw [if_neg hc]
      simp [hc]

theorem closeHandles_fst (host : LoaderHost) (handles : List Handle) :
    (closeHandles host handles).1 = handles ↔ ∀ h ∈ handles.dropLast, host.closes h := by
  induction handles with
  | nil => simp [closeHandles, gpuprintClose]
  | cons h handles ih =>
    rw [closeHandles, List.map_cons, gpuprintClose]
    cases handles with
    | nil => by_cases hc : host.closes h <;> simp [hc, gpuprintClose]
    | cons h' handles =>
      rw [List.dropLast_cons_cons, List.forall_mem_cons, ← ih]
      by_cases hc : host.closes h
      · rw [if_pos hc]
        simp [hc, closeHandles]
      · rw [if_neg hc]
        simp [hc]

theorem closeObjects_fst (host : LoaderHost) : (closeObjects host).1 =
    if (closeHandles host gpuprintPrograms).2 then
      gpuprintPrograms ++ (closeHandles host gpuprintMaps).1
    else (closeHandles host gpuprintPrograms).1 := by
  have hlast : (gpuprintClose [closeHandles host gpuprintMaps]).1 =
      (closeHandles host gpuprintMaps).1 := by
    rw [gpuprintClose]
    split
    · exact List.append_nil _
    · rfl
  rw [closeObjects, gpuprintClose]
  by_cases hall : (closeHandles host gpuprintPrograms).2
  · have hprograms : (closeHandles host gpuprintPrograms).1 = gpuprintPrograms := by
      apply (closeHandles_fst host _).mpr
      exact fun h hh => (closeHandles_snd host _).mp hall h (List.mem_of_mem_dropLast hh)
    rw [if_pos hall, if_pos hall]
    dsimp only
    rw [hlast, hprograms]
  · rw [if_neg hall, if_neg hall]

theorem initial_closeObjects (host : LoaderHost) :
    (closeObjects host).1 <+: gpuprintPrograms ++ gpuprintMaps := by
  rw [closeObjects_fst]
  split
  · exact (List.prefix_append_right_inj _).mpr (initial_closeHandles host _)
  · exact (initial_closeHandles host _).trans (List.prefix_append _ _)

theorem closeObjects_iff (host : LoaderHost) :
    (closeObjects host).1 = gpuprintPrograms ++ gpuprintMaps ↔ ClosesObjects host := by
  have hne : gpuprintMaps ≠ [] := by decide
  rw [closeObjects_fst, ClosesObjects, List.dropLast_append_of_ne_nil hne, List.forall_mem_append,
    ← closeHandles_snd, ← closeHandles_fst]
  by_cases hall : (closeHandles host gpuprintPrograms).2
  · rw [if_pos hall, List.append_cancel_left_eq]
    exact (and_iff_right hall).symm
  · rw [if_neg hall]
    refine iff_of_false (fun he => ?_) fun h => hall h.1
    have hlen := (initial_closeHandles host gpuprintPrograms).length_le
    rw [he, List.length_append] at hlen
    have hpos := List.length_pos_iff.mpr hne
    omega

end Objects

section Loaders

def Loads (host : LoaderHost) (programs : GoString) : Prop :=
  programs = loaderFingerprint ∧ host.removeMemlock ∧ host.loadGpuprintObjects

def Made.fate (host : LoaderHost) (m : Made) : List Handle :=
  m.closed ++ (m.loader.map (close host)).getD []

inductive Makes (host : LoaderHost) (programs : GoString) : Made → Prop where
  | nothing (hno : ¬ Loads host programs) : Makes host programs ⟨none, [], []⟩
  | failed {up} (hyes : Loads host programs) : Makes host programs
      ⟨none, gpuprintPrograms ++ gpuprintMaps ++ links up, close host ⟨true, up, false⟩⟩
  | made {up} (hyes : Loads host programs) : Makes host programs
      ⟨some ⟨true, up, true⟩, gpuprintPrograms ++ gpuprintMaps ++ links up ++ [.reader], []⟩

theorem makes_loader (host : LoaderHost) (programs : GoString) (cfg : Programsconfig) :
    Makes host programs (newEbpfGpuLoaders host programs cfg) := by
  rw [newEbpfGpuLoaders]
  split
  · next hname =>
    rw [newGpuprinterLoader]
    by_cases hmem : host.removeMemlock
    · by_cases hload : host.loadGpuprintObjects
      · have hyes : Loads host programs := ⟨hname, hmem, hload⟩
        simp only [hmem, hload, Bool.not_true, Bool.false_eq_true, if_false]
        split
        · have hfailed := @Makes.failed host programs [] hyes
          simpa [links] using hfailed
        · split
          · exact .failed hyes
          · exact .made hyes
      · simp only [hmem, hload]
        exact .nothing fun h => hload h.2.2
    · simp only [hmem]
      exact .nothing fun h => hmem h.2.1
  · next hname => exact .nothing fun h => hname h.1

variable {host : LoaderHost} {programs : GoString} {m : Made}

theorem Makes.nodup (h : Makes host programs m) : m.opened.Nodup := by
  have hobjects : (gpuprintPrograms ++ gpuprintMaps).Nodup := by decide +kernel
  have hlinks : ∀ up, (gpuprintPrograms ++ gpuprintMaps ++ links up).Nodup := by
    intro up
    apply hobjects.append
    · exact List.nodup_range.map fun i j hij => by cases hij; rfl
    · intro x hx hl
      obtain ⟨i, -, rfl⟩ := List.mem_map.mp hl
      simp [gpuprintPrograms, gpuprintMaps] at hx
  cases h with
  | nothing => exact List.nodup_nil
  | failed => exact hlinks _
  | made =>
    apply (hlinks _).append (List.nodup_singleton _)
    intro x hx hr
    rw [List.mem_singleton] at hr
    subst hr
    simp [gpuprintPrograms, gpuprintMaps, links] at hx

theorem Makes.fate_eq (h : Makes host programs m) : m.opened = [] ∧ m.fate host = [] ∧
    ¬ Loads host programs ∨ Loads host programs ∧ ∃ rest,
      m.opened = gpuprintPrograms ++ gpuprintMaps ++ rest ∧
      m.fate host = (closeObjects host).1 ++ rest := by
  cases h with
  | nothing hno => exact .inl ⟨rfl, rfl, hno⟩
  | @failed up hyes => exact .inr ⟨hyes, links up, rfl, by simp [Made.fate, close]⟩
  | @made up hyes =>
    exact .inr ⟨hyes, links up ++ [.reader], by simp, by simp [Made.fate, close]⟩

theorem Makes.fate_sublist (h : Makes host programs m) : (m.fate host).Sublist m.opened := by
  obtain ⟨hopened, hfate, -⟩ | ⟨-, rest, hopened, hfate⟩ := h.fate_eq
  · rw [hopened, hfate]
  · rw [hopened, hfate]
    exact (initial_closeObjects host).sublist.append (List.Sublist.refl rest)

theorem Makes.all_closed_iff (h : Makes host programs m) :
    (∀ x ∈ m.opened, x ∈ m.fate host) ↔ (Loads host programs → ClosesObjects host) := by
  obtain ⟨hopened, -, hno⟩ | ⟨hyes, rest, hopened, hfate⟩ := h.fate_eq
  · rw [hopened]
    exact iff_of_true (fun x hx => absurd hx List.not_mem_nil) fun hyes => absurd hyes hno
  · rw [imp_iff_right hyes, ← closeObjects_iff]
    constructor
    · intro hall
      have hsub : m.opened.Subperm (m.fate host) := h.nodup.subperm hall
      have hsame := h.fate_sublist.eq_of_length_le hsub.length_le
      rw [hopened, hfate, List.append_left_inj] at hsame
      exact hsame
    · intro hsame x hx
      rwa [hfate, hsame, ← hopened]

theorem Makes.closed_nil (h : Makes host programs m) (hloader : m.loader ≠ none) :
    m.closed = [] := by
  cases h with
  | nothing | failed => exact absurd rfl hloader
  | made => rfl

end Loaders

section Tags

variable {A : Type} {l : List (ℕ × A)} {f : ℕ × A → List Handle}

theorem mem_tagged {x : ℕ × Handle} :
    x ∈ l.flatMap (fun a => (f a).map fun h => (a.1, h)) ↔
      ∃ a, (x.1, a) ∈ l ∧ x.2 ∈ f (x.1, a) := by
  rw [List.mem_flatMap]
  constructor
  · rintro ⟨⟨i, a⟩, ha, hx⟩
    obtain ⟨h, hh, rfl⟩ := List.mem_map.mp hx
    exact ⟨a, ha, hh⟩
  · rintro ⟨a, ha, hx⟩
    exact ⟨(x.1, a), ha, List.mem_map.mpr ⟨x.2, hx, rfl⟩⟩

theorem nodup_tagged (hl : l.Pairwise fun a b => a.1 ≠ b.1) (hf : ∀ a ∈ l, (f a).Nodup) :
    (l.flatMap fun a => (f a).map fun h => (a.1, h)).Nodup := by
  rw [List.nodup_flatMap]
  constructor
  · intro a ha
    apply (hf a ha).map
    intro h h' heq
    cases heq
    rfl
  · refine hl.imp fun {a b} hne x hx hy => ?_
    obtain ⟨h, -, rfl⟩ := List.mem_map.mp hx
    obtain ⟨h', -, heq⟩ := List.mem_map.mp hy
    exact hne (congrArg Prod.fst heq).symm

end Tags

section Main

variable (hosts : ℕ → LoaderHost) (cfg : Programsconfig)

theorem mem_makeLoaders {i : ℕ} {m : Made} : (i, m) ∈ makeLoaders hosts cfg ↔
    ∃ program, cfg.enableProbes[i]? = some program ∧
      m = newEbpfGpuLoaders (hosts i) program cfg := by
  rw [makeLoaders, List.mem_map]
  constructor
  · rintro ⟨⟨program, j⟩, hmem, heq⟩
    cases heq
    exact ⟨program, List.mem_zipIdx_iff_getElem?.mp hmem, rfl⟩
  · rintro ⟨program, hget, rfl⟩
    exact ⟨(program, i), List.mem_zipIdx_iff_getElem?.mpr hget, rfl⟩

theorem makeLoaders_unique {i : ℕ} {m m' : Made} (h : (i, m) ∈ makeLoaders hosts cfg)
    (h' : (i, m') ∈ makeLoaders hosts cfg) : m = m' := by
  obtain ⟨program, hget, rfl⟩ := (mem_makeLoaders hosts cfg).mp h
  obtain ⟨program', hget', rfl⟩ := (mem_makeLoaders hosts cfg).mp h'
  rw [hget, Option.some.injEq] at hget'
  rw [hget']

theorem makes_of_mem {i : ℕ} {m : Made} (h : (i, m) ∈ makeLoaders hosts cfg) :
    ∃ program, cfg.enableProbes[i]? = some program ∧ Makes (hosts i) program m := by
  obtain ⟨program, hget, rfl⟩ := (mem_makeLoaders hosts cfg).mp h
  exact ⟨program, hget, makes_loader _ _ _⟩

theorem mem_lds {i : ℕ} {gt : GpuprintLoader} : (i, gt) ∈ lds hosts cfg ↔
    ∃ m, (i, m) ∈ makeLoaders hosts cfg ∧ m.loader = some gt := by
  rw [lds, List.mem_filterMap]
  constructor
  · rintro ⟨⟨j, m⟩, hm, heq⟩
    obtain ⟨gt', hgt, heq⟩ := Option.map_eq_some_iff.mp heq
    cases heq
    exact ⟨m, hm, hgt⟩
  · rintro ⟨m, hm, hgt⟩
    exact ⟨(i, m), hm, by rw [hgt]; rfl⟩

theorem mem_opened {x : ℕ × Handle} : x ∈ opened hosts cfg ↔
    ∃ m, (x.1, m) ∈ makeLoaders hosts cfg ∧ x.2 ∈ m.opened :=
  mem_tagged

theorem mem_closed {client : Bool} {x : ℕ × Handle} : x ∈ closed hosts cfg client ↔
    ∃ m, (x.1, m) ∈ makeLoaders hosts cfg ∧
      x.2 ∈ if client then m.fate (hosts x.1) else m.closed := by
  rw [closed, List.mem_append, mem_tagged]
  cases client with
  | false => simp
  | true =>
    rw [if_pos rfl, mem_tagged]
    simp only [List.mem_reverse, mem_lds, if_true, Made.fate, List.mem_append]
    constructor
    · rintro (⟨m, hm, hx⟩ | ⟨gt, ⟨m, hm, hgt⟩, hx⟩)
      · exact ⟨m, hm, .inl hx⟩
      · exact ⟨m, hm, .inr (by rwa [hgt])⟩
    · rintro ⟨m, hm, hx | hx⟩
      · exact .inl ⟨m, hm, hx⟩
      · cases hgt : m.loader with
        | none =>
          rw [hgt] at hx
          cases hx
        | some gt =>
          rw [hgt] at hx
          exact .inr ⟨gt, ⟨m, hm, hgt⟩, hx⟩

theorem pairwise_makeLoaders : (makeLoaders hosts cfg).Pairwise fun a b => a.1 ≠ b.1 := by
  have hindices : (makeLoaders hosts cfg).map Prod.fst =
      List.range' 0 cfg.enableProbes.length := by
    rw [makeLoaders, List.map_map]
    exact List.zipIdx_map_snd _ _
  have hnodup : ((makeLoaders hosts cfg).map Prod.fst).Nodup := by
    rw [hindices]
    exact List.nodup_range'
  exact List.pairwise_map.mp hnodup

theorem nodup_closed (client : Bool) : (closed hosts cfg client).Nodup := by
  have hpairs := pairwise_makeLoaders hosts cfg
  have hfate : ∀ m ∈ makeLoaders hosts cfg, (m.2.fate (hosts m.1)).Nodup := by
    intro m hm
    obtain ⟨program, -, hmakes⟩ := makes_of_mem hosts cfg hm
    exact hmakes.fate_sublist.nodup hmakes.nodup
  apply List.Nodup.append
  · apply nodup_tagged hpairs
    intro m hm
    exact (List.nodup_append.mp (hfate m hm)).1
  · cases client with
    | false => exact List.nodup_nil
    | true =>
      apply nodup_tagged
      · rw [List.pairwise_reverse]
        refine List.Pairwise.filterMap _ ?_ hpairs
        intro a b hne x hx y hy
        obtain ⟨_, -, rfl⟩ := Option.map_eq_some_iff.mp hx
        obtain ⟨_, -, rfl⟩ := Option.map_eq_some_iff.mp hy
        exact Ne.symm hne
      · rintro ⟨i, gt⟩ hl
        obtain ⟨m, hm, hgt⟩ := (mem_lds hosts cfg).mp (List.mem_reverse.mp hl)
        have hnodup := (List.nodup_append.mp (hfate _ hm)).2.1
        rwa [hgt] at hnodup
  · intro x hx hy
    obtain ⟨m, hm, hx⟩ := mem_tagged.mp hx
    cases client with
    | false => cases hy
    | true =>
      obtain ⟨gt, hgt, -⟩ := mem_tagged.mp hy
      obtain ⟨m', hm', hgt⟩ := (mem_lds hosts cfg).mp (List.mem_reverse.mp hgt)
      obtain ⟨program, -, hmakes⟩ := makes_of_mem hosts cfg hm'
      rw [makeLoaders_unique hosts cfg hm hm',
        hmakes.closed_nil (by rw [hgt]; exact Option.some_ne_none gt)] at hx
      cases hx

theorem Makes.reader_mem {host : LoaderHost} {programs : GoString} {m : Made}
    (h : Makes host programs m) (hloader : m.loader ≠ none) : .reader ∈ m.opened := by
  cases h with
  | nothing | failed => exact absurd rfl hloader
  | made => exact List.mem_append_right _ (List.mem_singleton_self _)

theorem all_closed_iff (client : Bool) :
    (∀ x ∈ opened hosts cfg, x ∈ closed hosts cfg client) ↔
      (client = true ∨ lds hosts cfg = []) ∧
      ∀ i m, (i, m) ∈ makeLoaders hosts cfg → ∀ h ∈ m.opened, h ∈ m.fate (hosts i) := by
  constructor
  · intro hall
    have hclosed : ∀ i m, (i, m) ∈ makeLoaders hosts cfg → ∀ h ∈ m.opened,
        h ∈ if client then m.fate (hosts i) else m.closed := by
      intro i m hm h hh
      have hx := hall (i, h) ((mem_opened hosts cfg).mpr ⟨m, hm, hh⟩)
      obtain ⟨m', hm', hx⟩ := (mem_closed hosts cfg).mp hx
      rwa [makeLoaders_unique hosts cfg hm hm']
    cases client with
    | true => exact ⟨.inl rfl, hclosed⟩
    | false =>
      refine ⟨.inr ?_, fun i m hm h hh => List.mem_append_left _ (hclosed i m hm h hh)⟩
      rw [List.eq_nil_iff_forall_not_mem]
      rintro ⟨i, gt⟩ hl
      -- the reader of a loader that was made is open, and its `Close` is never called
      obtain ⟨m, hm, hgt⟩ := (mem_lds hosts cfg).mp hl
      have hloader : m.loader ≠ none := by rw [hgt]; exact Option.some_ne_none gt
      obtain ⟨program, -, hmakes⟩ := makes_of_mem hosts cfg hm
      have hreader := hclosed i m hm _ (hmakes.reader_mem hloader)
      rw [hmakes.closed_nil hloader] at hreader
      cases hreader
  · rintro ⟨hclient, hall⟩ x hx
    obtain ⟨m, hm, hx⟩ := (mem_opened hosts cfg).mp hx
    have hfate := hall x.1 m hm x.2 hx
    refine (mem_closed hosts cfg).mpr ⟨m, hm, ?_⟩
    cases client with
    | true => exact hfate
    | false =>
      have hlds := hclient.resolve_left Bool.false_ne_true
      cases hgt : m.loader with
      | none =>
        rw [Made.fate, hgt] at hfate
        exact (List.mem_append.mp hfate).resolve_right List.not_mem_nil
      | some gt =>
        have hmem := (mem_lds hosts cfg).mpr ⟨m, hm, hgt⟩
        rw [hlds] at hmem
        cases hmem

/-- Until `main` ends it closes nothing twice and nothing that was not opened.
Everything is closed exactly when no program and no map but the last fails to
close, of any loader, and no loader is left when there is no client. This takes
`client.Run` to return; with a window of zero or less the program panics in it. -/
theorem main_closes_iff (client : Bool) : (closed hosts cfg client).Nodup ∧
    (∀ x ∈ closed hosts cfg client, x ∈ opened hosts cfg) ∧
    ((∀ x ∈ opened hosts cfg, x ∈ closed hosts cfg client) ↔
      (client = true ∨ lds hosts cfg = []) ∧ ∀ i program, cfg.enableProbes[i]? = some program →
        Loads (hosts i) program → ClosesObjects (hosts i)) := by
  refine ⟨nodup_closed hosts cfg client, ?_, ?_⟩
  · intro x hx
    obtain ⟨m, hm, hx⟩ := (mem_closed hosts cfg).mp hx
    obtain ⟨program, -, hmakes⟩ := makes_of_mem hosts cfg hm
    have hfate : x.2 ∈ m.fate (hosts x.1) := by
      cases client with
      | true => exact hx
      | false => exact List.mem_append_left _ hx
    exact (mem_opened hosts cfg).mpr ⟨m, hm, hmakes.fate_sublist.subset hfate⟩
  · rw [all_closed_iff]
    apply and_congr_right'
    constructor
    · intro hall i program hget
      have hm := (mem_makeLoaders hosts cfg).mpr ⟨program, hget, rfl⟩
      exact (makes_loader _ _ _).all_closed_iff.mp (hall i _ hm)
    · intro hcloses i m hm
      obtain ⟨program, hget, hmakes⟩ := makes_of_mem hosts cfg hm
      exact hmakes.all_closed_iff.mpr (hcloses i program hget)

end Main

end InfraSightGpu.Lifecycle
