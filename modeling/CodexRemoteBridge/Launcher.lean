/-
  CodexRemoteBridge.Launcher — installing `uv`, by any number of callers.

  `ensureUv` stages the tree in a directory of its own, checks the archive
  against a pinned digest, and publishes the tree by one rename.  There is
  no lock: whoever renames first wins, and the others find what he left.

  Main result: `Cache.verified_installation`.
-/
import CodexRemoteBridge.Lib.Coroutine
import Mathlib.Logic.Function.Basic

namespace CodexRemoteBridge.Launcher

open Interaction

/-! ## §1. `ensureUv`. -/

abbrev Bytes : Type := List UInt8

/-- The files of a directory, by name. -/
structure Tree where
  files : List (String × Bytes)
  deriving DecidableEq

/-- `mkdir`. -/
def Tree.empty : Tree := ⟨[]⟩

def Tree.has (t : Tree) (name : String) : Bool := t.files.any fun file => file.1 = name

/-- What is not JavaScript: the digest of bytes, and the tree that
unpacking them makes. -/
class Toolbox where
  sha256 : Bytes → String
  unpack : Bytes → Tree

/-- `Error`. -/
structure JsError where
  message : String
  deriving DecidableEq

/-- The paths of `ensureUv`, under its own names; a temporary directory is
named by what `mkdtemp` made of it. -/
inductive Place where
  | root
  | destination
  | executable
  | temporary (n : Nat)
  | archive (n : Nat)
  | unpacked (n : Nat)
  | unpackedExecutable (n : Nat)
  deriving DecidableEq

/-- What `ensureUv` awaits. -/
inductive FileOp where
  /-- `access(path).then(() => true, () => false)`. -/
  | pathExists (path : Place)
  | mkdir (path : Place)
  /-- `mkdtemp(join(root, '.uv-install-'))`. -/
  | mkdtemp
  | fetchArchive (url : String)
  | writeFile (path : Place) (bytes : Bytes)
  | extractArchive (archive directory : Place)
  | access (path : Place)
  | chmod (path : Place)
  | rename (source target : Place)
  /-- `rm(path, { recursive: true, force: true })`. -/
  | rm (path : Place)
  deriving DecidableEq

/-- What an operation resolves to, or is rejected with. -/
abbrev FileAns : FileOp → Type
  | .pathExists _ => Bool
  | .mkdir _ => Except JsError Unit
  | .mkdtemp => Except JsError Nat
  | .fetchArchive _ => Except JsError Bytes
  | .writeFile _ _ => Except JsError Unit
  | .extractArchive _ _ => Except JsError Unit
  | .access _ => Except JsError Unit
  | .chmod _ => Except JsError Unit
  | .rename _ _ => Except JsError Unit
  | .rm _ => Except JsError Unit

/-- An `async` function. -/
abbrev Js : Type → Type := Co FileOp FileAns JsError Unit

/-- Await an operation that may be rejected. -/
def await {α : Type} (op : FileOp) (view : FileAns op → Except JsError α) : Js α :=
  Co.ask op >>= fun r => Co.ofExcept (view r)

def pathExists (path : Place) : Js Bool := Co.ask (FileOp.pathExists path)
def mkdir (path : Place) : Js Unit := await (.mkdir path) id
def mkdtemp : Js Nat := await .mkdtemp id
def fetchArchive (url : String) : Js Bytes := await (.fetchArchive url) id
def writeFile (path : Place) (bytes : Bytes) : Js Unit := await (.writeFile path bytes) id
def access (path : Place) : Js Unit := await (.access path) id
def chmod (path : Place) : Js Unit := await (.chmod path) id
def rename (source target : Place) : Js Unit := await (.rename source target) id
def rm (path : Place) : Js Unit := await (.rm path) id

def extractArchive (archive directory : Place) : Js Unit :=
  await (.extractArchive archive directory) id

def uvVersion : String := "0.12.13"

/-- `ASSETS`: an archive and its digest for each platform. -/
def assets : List (String × String × String) :=
  [("linux-x64", "x86_64-unknown-linux-gnu.tar.gz",
      "745765a3b6e360ad76743599ae5c42e9278c7edf8bbff9fc76d05bf2623a04dd"),
   ("linux-arm64", "aarch64-unknown-linux-gnu.tar.gz",
      "2eaa5d94f5db7b3a1a092156b9420459e42ab0217d917fe74a876309cef9b5e9"),
   ("darwin-x64", "x86_64-apple-darwin.tar.gz",
      "5e287ef61cb6a9b61b3a83fef124fd143e400468a7dac794230147a810e17119"),
   ("darwin-arm64", "aarch64-apple-darwin.tar.gz",
      "7e6ddb9316acc00f2296c82ff4d99977870ee34b2f0ddcae9444d714db9364ed"),
   ("win32-x64", "x86_64-pc-windows-msvc.zip",
      "a86c9dc7bad9b03f388583b7187c05fe9951c2e0d392217e8fd43d97787f6ec2"),
   ("win32-arm64", "aarch64-pc-windows-msvc.zip",
      "1efb2654b06e7063d4ac1fc9d49a9bda9a6704d82f035b589a2751a592f14151")]

/-- The arguments of `ensureUv` that the callers share; `pinned` is its
`assets`. -/
structure Target where
  platform : String
  arch : String
  pinned : List (String × String × String)

namespace Target

/-- `assets[...]`: the archive's name and its digest. -/
def asset (t : Target) : Option (String × String) :=
  t.pinned.lookup (t.platform ++ "-" ++ t.arch)

/-- The file name of the executable. -/
def executableName (t : Target) : String := if t.platform = "win32" then "uv.exe" else "uv"

def unsupported (t : Target) : JsError :=
  ⟨"Unsupported platform " ++ t.platform ++ "/" ++ t.arch ++ "; supported: "
    ++ ", ".intercalate (assets.map Prod.fst)⟩

def url (name : String) : String :=
  "https://github.com/astral-sh/uv/releases/download/" ++ uvVersion ++ "/uv-" ++ name

end Target

def digestMismatch : JsError := ⟨"uv archive SHA256 mismatch"⟩

section Code

variable [Toolbox]

/-- The download, and the tree it unpacks to. -/
def stage (t : Target) (name digest : String) (temporary : Nat) : Js Unit := do
  let bytes ← fetchArchive (Target.url name)
  if Toolbox.sha256 bytes ≠ digest then Co.throw digestMismatch
  else do
    writeFile (.archive temporary) bytes
    mkdir (.unpacked temporary)
    extractArchive (.archive temporary) (.unpacked temporary)
    access (.unpackedExecutable temporary)
    if t.platform ≠ "win32" then chmod (.unpackedExecutable temporary) else pure ()

/-- The first atomic rename wins; who comes later uses what is there. -/
def publish (temporary : Nat) : Js Unit :=
  Co.tryCatch (rename (.unpacked temporary) .destination) fun error => do
    let present ← pathExists .executable
    if !present then Co.throw error else pure ()

/-- `ensureUv`. -/
def ensureUv (t : Target) : Js Place :=
  match t.asset with
  | none => Co.throw t.unsupported
  | some (name, digest) => do
      let present ← pathExists .executable
      if present then pure .executable
      else do
        mkdir .root
        let temporary ← mkdtemp
        Co.tryFinally
          (do
            stage t name digest temporary
            publish temporary
            pure .executable)
          (rm (.temporary temporary))

end Code

/-! ## §2. The cache directory. -/

/-- What is in a temporary directory. -/
structure Staging where
  archive : Option Bytes
  unpacked : Option Tree

/-- The cache directory: the destination, the temporary directories there
are, and every name `mkdtemp` has given out. -/
structure Disk where
  destination : Option Tree
  staging : Nat → Option Staging
  names : List Nat

def Disk.stage (d : Disk) (n : Nat) (s : Option Staging) : Disk :=
  { d with staging := Function.update d.staging n s }

section World

variable [Toolbox]

/-- How the filesystem, the network and `tar` answer.  Everything may fail
and leave what it was writing in any state; a rename is atomic, and fails
onto a directory that is not empty. -/
inductive Disk.Serves (t : Target) (d : Disk) : (op : FileOp) → FileAns op → Disk → Prop
  | found {tree : Tree} :
      d.destination = some tree → tree.has t.executableName = true →
      Disk.Serves t d (.pathExists .executable) true d
  | notFound : Disk.Serves t d (.pathExists .executable) false d
  | mkdirRoot (r : Except JsError Unit) : Disk.Serves t d (.mkdir .root) r d
  | mkdtemp {n : Nat} :
      n ∉ d.names →
      Disk.Serves t d .mkdtemp (.ok n)
        { d.stage n (some ⟨none, none⟩) with names := n :: d.names }
  | mkdtempFails (e : JsError) : Disk.Serves t d .mkdtemp (.error e) d
  | fetchArchive (url : String) (r : Except JsError Bytes) :
      Disk.Serves t d (.fetchArchive url) r d
  | writeFile {n : Nat} {s : Staging} (bytes : Bytes) :
      d.staging n = some s →
      Disk.Serves t d (.writeFile (.archive n) bytes) (.ok ())
        (d.stage n (some { s with archive := some bytes }))
  | writeFileFails {n : Nat} {s : Staging} (s' : Staging) (bytes : Bytes) (e : JsError) :
      d.staging n = some s →
      Disk.Serves t d (.writeFile (.archive n) bytes) (.error e) (d.stage n (some s'))
  | mkdirUnpacked {n : Nat} {s : Staging} :
      d.staging n = some s → s.unpacked = none →
      Disk.Serves t d (.mkdir (.unpacked n)) (.ok ())
        (d.stage n (some { s with unpacked := some Tree.empty }))
  | mkdirUnpackedFails {n : Nat} (e : JsError) :
      Disk.Serves t d (.mkdir (.unpacked n)) (.error e) d
  | extractArchive {n : Nat} {s : Staging} {bytes : Bytes} :
      d.staging n = some s → s.archive = some bytes →
      Disk.Serves t d (.extractArchive (.archive n) (.unpacked n)) (.ok ())
        (d.stage n (some { s with unpacked := some (Toolbox.unpack bytes) }))
  | extractArchiveFails {n : Nat} {s : Staging} (s' : Staging) (e : JsError) :
      d.staging n = some s →
      Disk.Serves t d (.extractArchive (.archive n) (.unpacked n)) (.error e)
        (d.stage n (some s'))
  | access {n : Nat} {s : Staging} {tree : Tree} :
      d.staging n = some s → s.unpacked = some tree → tree.has t.executableName = true →
      Disk.Serves t d (.access (.unpackedExecutable n)) (.ok ()) d
  | accessFails {n : Nat} (e : JsError) :
      Disk.Serves t d (.access (.unpackedExecutable n)) (.error e) d
  | chmod {n : Nat} (r : Except JsError Unit) :
      Disk.Serves t d (.chmod (.unpackedExecutable n)) r d
  | rename {n : Nat} {s : Staging} {tree : Tree} :
      d.staging n = some s → s.unpacked = some tree →
      (∀ old, d.destination = some old → old.files = []) →
      Disk.Serves t d (.rename (.unpacked n) .destination) (.ok ())
        { d.stage n (some { s with unpacked := none }) with destination := some tree }
  | renameFails {n : Nat} (e : JsError) :
      Disk.Serves t d (.rename (.unpacked n) .destination) (.error e) d
  | rm {n : Nat} : Disk.Serves t d (.rm (.temporary n)) (.ok ()) (d.stage n none)
  | rmFails {n : Nat} {s : Staging} (s' : Staging) (e : JsError) :
      d.staging n = some s →
      Disk.Serves t d (.rm (.temporary n)) (.error e) (d.stage n (some s'))

/-- A caller of `ensureUv`, as far as it has got. -/
structure Caller where
  history : List (Event FileAns)
  rest : Prog FileOp FileAns (Except JsError Place × Unit)

/-- The cache directory and its callers; `changes` records which callers
have changed the destination. -/
structure Cache where
  disk : Disk
  callers : List Caller
  changes : List Nat

/-- A step: somebody calls `ensureUv`, or what a caller awaits settles. -/
inductive Cache.Step (t : Target) (K : Cache) : Cache → Prop
  | call : Cache.Step t K { K with callers := K.callers ++ [⟨[], ensureUv t ()⟩] }
  | act {i : Nat} {c : Caller} {op : FileOp}
      {k : FileAns op → Prog FileOp FileAns (Except JsError Place × Unit)}
      {r : FileAns op} {disk : Disk} :
      K.callers[i]? = some c → c.rest = .op op k → Disk.Serves t K.disk op r disk →
      Cache.Step t K
        { disk := disk
          callers := K.callers.set i ⟨c.history ++ [⟨op, r⟩], k r⟩
          changes :=
            if disk.destination = K.disk.destination then K.changes else K.changes ++ [i] }

/-- The states an execution from `K₀` passes through. -/
inductive Cache.Reach (t : Target) (K₀ : Cache) : Cache → Prop
  | init : Cache.Reach t K₀ K₀
  | step {K K' : Cache} : Cache.Reach t K₀ K → K.Step t K' → Cache.Reach t K₀ K'

/-- Nothing at the destination; what earlier callers have left is left there. -/
def Cache.init (staging : Nat → Option Staging) (names : List Nat) : Cache where
  disk := ⟨none, staging, names⟩
  callers := []
  changes := []

/-! ## §3. What a caller knows. -/

/-- What a caller knows of its temporary directory. -/
inductive Known where
  | nothing
  | fetched (bytes : Bytes)
  | written (bytes : Bytes)
  | prepared (bytes : Bytes)
  | extracted (bytes : Bytes)
  | checked (bytes : Bytes)

/-- Where a caller is with its temporary directory. -/
inductive Room where
  | outside
  | has (n : Nat) (known : Known)
  | gone (n : Nat)
  /-- `rm` has failed. -/
  | left (n : Nat)

/-- The notes of one caller: its temporary directory, whether it has seen
the executable, and whether it has published one. -/
structure Journal where
  room : Room
  seen : Bool
  published : Bool

def Journal.start : Journal := ⟨.outside, false, false⟩

/-- Any failure leaves the temporary directory in doubt. -/
def Room.doubt : Room → Room
  | .has n _ => .has n .nothing
  | room => room

/-- Follow a caller. -/
def Journal.note (j : Journal) (e : Event FileAns) : Journal :=
  match e with
  | ⟨.pathExists _, true⟩ => { j with seen := true }
  | ⟨.mkdtemp, .ok n⟩ => { j with room := .has n .nothing }
  | ⟨.fetchArchive _, .ok bytes⟩ =>
      match j.room with
      | .has n _ => { j with room := .has n (.fetched bytes) }
      | _ => j
  | ⟨.writeFile _ bytes, .ok _⟩ =>
      match j.room with
      | .has n _ => { j with room := .has n (.written bytes) }
      | _ => j
  | ⟨.mkdir _, .ok _⟩ =>
      match j.room with
      | .has n (.written bytes) => { j with room := .has n (.prepared bytes) }
      | _ => j
  | ⟨.extractArchive _ _, .ok _⟩ =>
      match j.room with
      | .has n (.prepared bytes) => { j with room := .has n (.extracted bytes) }
      | _ => j
  | ⟨.access _, .ok _⟩ =>
      match j.room with
      | .has n (.extracted bytes) => { j with room := .has n (.checked bytes) }
      | _ => j
  | ⟨.rename _ _, .ok _⟩ => { room := j.room.doubt, seen := true, published := true }
  | ⟨.rm _, .ok _⟩ =>
      match j.room with
      | .has n _ => { j with room := .gone n }
      | _ => j
  | ⟨.rm _, .error _⟩ =>
      match j.room with
      | .has n _ => { j with room := .left n }
      | _ => j
  | ⟨.writeFile _ _, .error _⟩ => { j with room := j.room.doubt }
  | ⟨.extractArchive _ _, .error _⟩ => { j with room := j.room.doubt }
  | _ => j

/-- The bytes have the digest that is pinned for the platform. -/
def Target.Pinned (t : Target) (bytes : Bytes) : Prop :=
  ∃ name digest, t.asset = some (name, digest) ∧ Toolbox.sha256 bytes = digest

/-- What a caller does where. -/
def Journal.May (t : Target) (j : Journal) : FileOp → Prop
  | .pathExists path => path = .executable
  | .mkdir .root => j.room = .outside
  | .mkdir (.unpacked n) => ∃ bytes, j.room = .has n (.written bytes)
  | .mkdir _ => False
  | .mkdtemp => j.room = .outside
  | .fetchArchive _ => True
  | .writeFile path bytes =>
      ∃ n, path = .archive n ∧ j.room = .has n (.fetched bytes) ∧ t.Pinned bytes
  | .extractArchive archive directory =>
      ∃ n bytes, archive = .archive n ∧ directory = .unpacked n ∧
        j.room = .has n (.prepared bytes)
  | .access path =>
      ∃ n bytes, path = .unpackedExecutable n ∧ j.room = .has n (.extracted bytes)
  | .chmod path => ∃ n, path = .unpackedExecutable n
  | .rename source target =>
      ∃ n bytes, source = .unpacked n ∧ target = .destination ∧
        j.room = .has n (.checked bytes) ∧ j.published = false
  | .rm path => ∃ n known, path = .temporary n ∧ j.room = .has n known

/-- Where a caller settles. -/
def Journal.Settled (j : Journal) : Except JsError Place → Prop
  | .ok path => path = .executable ∧ j.seen = true ∧ ∀ n known, j.room ≠ .has n known
  | .error _ =>
      (∀ n known, j.room ≠ .has n known) ∧ (j.published = true → ∃ n, j.room = .left n)

/-- What `ensureUv` is held to. -/
abbrev EnsureSpec (t : Target) : OpSpec FileAns Journal := observe Journal.note (Journal.May t)

/-- The caller has a temporary directory and has published nothing. -/
def Journal.Staging (n : Nat) (j : Journal) : Prop :=
  (∃ known, j.room = .has n known) ∧ j.published = false

section Code

variable {t : Target} {j : Journal} {n : Nat}

omit [Toolbox] in
theorem wp_await {α : Type} {Φ : OpSpec FileAns Journal} (op : FileOp)
    (view : FileAns op → Except JsError α) (Q : α → Unit → Journal → Prop)
    (X : JsError → Unit → Journal → Prop) (s : Unit) :
    Co.wp Φ (await op view) Q X s
      = Φ op fun r j =>
          match view r with
          | .ok a => Q a s j
          | .error e => X e s j := by
  unfold await
  rw [Co.wp_bind, Co.wp_ask]
  congr 1
  funext r j
  rw [Co.wp_ofExcept]
  cases view r <;> rfl

/-- Only verified bytes are unpacked, and only a tree with the executable is
handed on. -/
theorem wp_stage {name digest : String} (hasset : t.asset = some (name, digest))
    (hj : j.Staging n) :
    Co.wp (EnsureSpec t) (stage t name digest n)
      (fun _ _ j' => (∃ bytes, j'.room = .has n (.checked bytes)) ∧ j'.published = false)
      (fun _ _ j' => j'.Staging n) () j := by
  obtain ⟨room, seen, published⟩ := j
  obtain ⟨⟨known, rfl⟩, rfl⟩ := hj
  unfold stage
  rw [Co.wp_bind, fetchArchive, wp_await]
  refine ⟨trivial, fun r => ?_⟩
  cases r with
  | error e => exact ⟨⟨known, rfl⟩, rfl⟩
  | ok bytes =>
      dsimp only [id]
      split
      · exact ⟨⟨_, rfl⟩, rfl⟩
      rename_i hdigest
      have hpinned : t.Pinned bytes := ⟨name, digest, hasset, not_not.mp hdigest⟩
      rw [Co.wp_bind, writeFile, wp_await]
      refine ⟨⟨n, rfl, rfl, hpinned⟩, fun r => ?_⟩
      cases r with
      | error e => exact ⟨⟨_, rfl⟩, rfl⟩
      | ok _ =>
          dsimp only [id]
          rw [Co.wp_bind, mkdir, wp_await]
          refine ⟨⟨bytes, rfl⟩, fun r => ?_⟩
          cases r with
          | error e => exact ⟨⟨_, rfl⟩, rfl⟩
          | ok _ =>
              dsimp only [id]
              rw [Co.wp_bind, extractArchive, wp_await]
              refine ⟨⟨n, bytes, rfl, rfl, rfl⟩, fun r => ?_⟩
              cases r with
              | error e => exact ⟨⟨_, rfl⟩, rfl⟩
              | ok _ =>
                  dsimp only [id]
                  rw [Co.wp_bind, access, wp_await]
                  refine ⟨⟨n, bytes, rfl, rfl⟩, fun r => ?_⟩
                  cases r with
                  | error e => exact ⟨⟨_, rfl⟩, rfl⟩
                  | ok _ =>
                      dsimp only [id]
                      split
                      · rw [chmod, wp_await]
                        refine ⟨⟨n, rfl⟩, fun r => ?_⟩
                        cases r with
                        | error e => exact ⟨⟨_, rfl⟩, rfl⟩
                        | ok _ => exact ⟨⟨bytes, rfl⟩, rfl⟩
                      · exact ⟨⟨bytes, rfl⟩, rfl⟩

/-- Either the tree is published, or there was one already. -/
theorem wp_publish {bytes : Bytes} (hroom : j.room = .has n (.checked bytes))
    (hpublished : j.published = false) :
    Co.wp (EnsureSpec t) (publish n)
      (fun _ _ j' => (∃ known, j'.room = .has n known) ∧ j'.seen = true)
      (fun _ _ j' => j'.Staging n) () j := by
  obtain ⟨room, seen, published⟩ := j
  obtain rfl : room = .has n (.checked bytes) := hroom
  obtain rfl : published = false := hpublished
  unfold publish
  rw [Co.wp_tryCatch, rename, wp_await]
  refine ⟨⟨n, bytes, rfl, rfl, rfl, rfl⟩, fun r => ?_⟩
  cases r with
  | ok _ => exact ⟨⟨_, rfl⟩, rfl⟩
  | error e =>
      dsimp only [id]
      rw [Co.wp_bind, pathExists, Co.wp_ask]
      refine ⟨rfl, fun present => ?_⟩
      cases present with
      | true => exact ⟨⟨_, rfl⟩, rfl⟩
      | false => exact ⟨⟨_, rfl⟩, rfl⟩

/-- Removing the temporary directory, on every way out. -/
theorem wp_rm {known : Known} (hroom : j.room = .has n known) :
    Co.wp (EnsureSpec t) (rm (.temporary n))
      (fun _ _ j' => j' = { j with room := .gone n })
      (fun _ _ j' => j' = { j with room := .left n }) () j := by
  obtain ⟨room, seen, published⟩ := j
  obtain rfl : room = .has n known := hroom
  rw [rm, wp_await]
  refine ⟨⟨n, known, rfl, rfl⟩, fun r => ?_⟩
  cases r <;> rfl

/-- **One caller**: what it does where, and how it settles. -/
theorem wp_ensureUv (t : Target) :
    Interaction.wp (EnsureSpec t) (ensureUv t ()) (fun r j => j.Settled r.1) Journal.start := by
  have hmono : (EnsureSpec t).Mono := observe_mono _ _
  suffices h : Co.wp (EnsureSpec t) (ensureUv t) (fun path _ j => j.Settled (.ok path))
      (fun e _ j => j.Settled (.error e)) () Journal.start by
    refine Interaction.wp_mono hmono _ ?_ _ h
    rintro ⟨e | path, _⟩ j hj <;> exact hj
  unfold ensureUv
  cases hasset : t.asset with
  | none => exact ⟨fun _ _ => nofun, nofun⟩
  | some asset =>
      obtain ⟨name, digest⟩ := asset
      dsimp only
      rw [Co.wp_bind, pathExists, Co.wp_ask]
      refine ⟨rfl, fun present => ?_⟩
      cases present with
      | true => exact ⟨rfl, rfl, fun _ _ => nofun⟩
      | false =>
          rw [if_neg (by simp), Co.wp_bind, mkdir, wp_await]
          refine ⟨rfl, fun r => ?_⟩
          cases r with
          | error e => exact ⟨fun _ _ => nofun, nofun⟩
          | ok _ =>
              dsimp only [id]
              rw [Co.wp_bind, mkdtemp, wp_await]
              refine ⟨rfl, fun r => ?_⟩
              cases r with
              | error e => exact ⟨fun _ _ => nofun, nofun⟩
              | ok n =>
                  dsimp only [id]
                  rw [Co.wp_tryFinally]
                  have hout : ∀ e j, Journal.Staging n j →
                      Co.wp (EnsureSpec t) (rm (.temporary n))
                        (fun _ _ j => j.Settled (.error e)) (fun e' _ j => j.Settled (.error e'))
                        () j := by
                    rintro e j ⟨⟨known, hroom⟩, hpublished⟩
                    refine Co.wp_conseq hmono (wp_rm hroom) ?_ ?_
                    · rintro _ _ _ rfl
                      exact ⟨fun _ _ => nofun, fun h => absurd h (by simp [hpublished])⟩
                    · rintro _ _ _ rfl
                      exact ⟨fun _ _ => nofun, fun _ => ⟨n, rfl⟩⟩
                  rw [Co.wp_bind]
                  refine Co.wp_conseq hmono (wp_stage hasset ⟨⟨.nothing, rfl⟩, rfl⟩) ?_
                    fun e _ j hj => hout e j hj
                  rintro _ _ j ⟨⟨bytes, hroom⟩, hpublished⟩
                  rw [Co.wp_bind]
                  refine Co.wp_conseq hmono (wp_publish hroom hpublished) ?_
                    fun e _ j hj => hout e j hj
                  rintro _ _ j ⟨⟨known, hroom⟩, hseen⟩
                  rw [Co.wp_pure]
                  refine Co.wp_conseq hmono (wp_rm hroom) ?_ ?_
                  · rintro _ _ _ rfl
                    exact ⟨rfl, hseen, fun _ _ => nofun⟩
                  · rintro _ _ _ rfl
                    exact ⟨fun _ _ => nofun, fun _ => ⟨n, rfl⟩⟩

end Code

/-! ## §4. What a caller knows is so. -/

/-- A complete tree, extracted from verified bytes. -/
def Target.Complete (t : Target) (tree : Tree) : Prop :=
  ∃ bytes, t.Pinned bytes ∧ tree = Toolbox.unpack bytes ∧ tree.has t.executableName = true

omit [Toolbox] in
theorem Tree.files_ne_nil {tree : Tree} {name : String} (h : tree.has name = true) :
    tree.files ≠ [] := by
  intro hnil
  simp [Tree.has, hnil] at h

/-- What is known of a temporary directory holds of it. -/
def Known.Holds (t : Target) (known : Known) (s : Staging) : Prop :=
  match known with
  | .nothing => True
  | .fetched _ => True
  | .written bytes => t.Pinned bytes ∧ s.archive = some bytes
  | .prepared bytes => t.Pinned bytes ∧ s.archive = some bytes
  | .extracted bytes => t.Pinned bytes ∧ s.unpacked = some (Toolbox.unpack bytes)
  | .checked bytes => s.unpacked = some (Toolbox.unpack bytes) ∧ t.Complete (Toolbox.unpack bytes)

/-- The temporary directory of a caller, also after it is gone. -/
def Room.number : Room → Option Nat
  | .outside => none
  | .has n _ => some n
  | .gone n => some n
  | .left n => some n

def Room.Holds (t : Target) (d : Disk) : Room → Prop
  | .outside => True
  | .has n known => ∃ s, d.staging n = some s ∧ known.Holds t s
  | .gone n => d.staging n = none
  | .left _ => True

/-- The notes of a caller agree with the disk. -/
structure Agrees (t : Target) (d : Disk) (j : Journal) : Prop where
  room : j.room.Holds t d
  name : ∀ n, j.room.number = some n → n ∈ d.names
  seen : j.seen = true → ∃ tree, d.destination = some tree ∧ tree.has t.executableName = true

/-- What an operation of one caller does to the disk and to his notes. -/
structure Moved (t : Target) (d d' : Disk) (j j' : Journal) : Prop where
  agrees : Agrees t d' j'
  /-- Other temporary directories are left alone. -/
  frame : ∀ n, j'.room.number ≠ some n → d'.staging n = d.staging n
  number : j'.room.number = j.room.number ∨
    j.room.number = none ∧ ∃ n, j'.room.number = some n ∧ n ∉ d.names
  names : ∀ n ∈ d.names, n ∈ d'.names
  destination : d'.destination = d.destination ∨
    d.destination = none ∧ j'.published = true ∧
      ∃ tree, d'.destination = some tree ∧ t.Complete tree

section Served

variable {t : Target} {d d' : Disk} {j : Journal} {n : Nat}

omit [Toolbox] in
theorem Disk.staging_stage_of_ne {n' : Nat} (h : n' ≠ n) (s : Option Staging) :
    (d.stage n s).staging n' = d.staging n' := by
  simp [Disk.stage, h]

omit [Toolbox] in
@[simp] theorem Disk.staging_stage (s : Option Staging) : (d.stage n s).staging n = s := by
  simp [Disk.stage]

/-- An operation that leaves the disk alone, and of which nothing is noted but
that the executable was seen. -/
theorem Agrees.still {j' : Journal} (h : Agrees t d j) (hroom : j'.room.Holds t d)
    (hnumber : j'.room.number = j.room.number)
    (hseen : j'.seen = true → j.seen = true ∨
      ∃ tree, d.destination = some tree ∧ tree.has t.executableName = true) :
    Moved t d d j j' where
  agrees :=
    { room := hroom
      name := fun n hn => h.name n (hnumber ▸ hn)
      seen := fun hs => (hseen hs).elim h.seen id }
  frame := fun _ _ => rfl
  number := .inl hnumber
  names := fun _ hn => hn
  destination := .inl rfl

/-- An operation on the caller's own temporary directory. -/
theorem Agrees.restage {j' : Journal} {s : Option Staging} (h : Agrees t d j)
    (hn : j.room.number = some n) (hn' : j'.room.number = some n)
    (hroom : j'.room.Holds t (d.stage n s)) (hseen : j'.seen = j.seen) :
    Moved t d (d.stage n s) j j' where
  agrees :=
    { room := hroom
      name := fun n' hn'' => h.name n' (by rw [hn, ← hn', hn''])
      seen := fun hs => h.seen (hseen ▸ hs) }
  frame := fun n' hne => Disk.staging_stage_of_ne (fun e => hne (by rw [hn', e])) s
  number := .inl (hn'.trans hn.symm)
  names := fun _ hmem => hmem
  destination := .inl rfl

/-- **One operation**: the notes still agree with the disk, nobody else's
directory is touched, and the destination changes only where there was
none, into a complete tree. -/
theorem Disk.Serves.moved {op : FileOp} {r : FileAns op} (h : Disk.Serves t d op r d')
    (hj : Agrees t d j) (hmay : j.May t op)
    (hcomplete : ∀ tree, d.destination = some tree → t.Complete tree) :
    Moved t d d' j (j.note ⟨op, r⟩) := by
  obtain ⟨room, seen, published⟩ := j
  cases h with
  | found hdestination hhas =>
      exact hj.still hj.room rfl fun _ => .inr ⟨_, hdestination, hhas⟩
  | notFound => exact hj.still hj.room rfl .inl
  | mkdirRoot r =>
      obtain rfl : room = .outside := hmay
      cases r <;> exact hj.still trivial rfl .inl
  | mkdtemp hfresh =>
      rename_i n
      obtain rfl : room = .outside := hmay
      refine ⟨⟨⟨_, Disk.staging_stage _, trivial⟩, ?_, hj.seen⟩, ?_, .inr ⟨rfl, n, rfl, hfresh⟩,
        fun n' hn' => List.mem_cons_of_mem n hn', .inl rfl⟩
      · intro n' hn'
        obtain rfl := Option.some.inj hn'
        exact List.mem_cons_self
      · exact fun n' hne => Disk.staging_stage_of_ne (fun e => hne (by rw [e]; rfl)) _
  | mkdtempFails e => exact hj.still hj.room rfl .inl
  | fetchArchive url r =>
      cases r with
      | error e => exact hj.still hj.room rfl .inl
      | ok bytes =>
          cases room with
          | has n known =>
              obtain ⟨s, hs, -⟩ := hj.room
              exact hj.still ⟨s, hs, trivial⟩ rfl .inl
          | _ => exact hj.still hj.room rfl .inl
  | writeFile bytes hs =>
      obtain ⟨n, hpath, hroom, hpinned⟩ := hmay
      cases hpath
      obtain rfl : room = _ := hroom
      exact hj.restage rfl rfl ⟨_, Disk.staging_stage _, hpinned, rfl⟩ rfl
  | writeFileFails s' bytes e hs =>
      obtain ⟨n, hpath, hroom, -⟩ := hmay
      cases hpath
      obtain rfl : room = _ := hroom
      exact hj.restage rfl rfl ⟨_, Disk.staging_stage _, trivial⟩ rfl
  | mkdirUnpacked hs hunpacked =>
      obtain ⟨bytes, hroom⟩ := hmay
      obtain rfl : room = _ := hroom
      obtain ⟨s₀, hs₀, hpinned, harchive⟩ := hj.room
      obtain rfl := Option.some.inj (hs.symm.trans hs₀)
      exact hj.restage rfl rfl ⟨_, Disk.staging_stage _, hpinned, harchive⟩ rfl
  | mkdirUnpackedFails e =>
      exact hj.still hj.room rfl .inl
  | extractArchive hs harchive =>
      obtain ⟨n, bytes, hpath, -, hroom⟩ := hmay
      cases hpath
      obtain rfl : room = _ := hroom
      obtain ⟨s₀, hs₀, hpinned, harchive₀⟩ := hj.room
      obtain rfl := Option.some.inj (hs.symm.trans hs₀)
      obtain rfl := Option.some.inj (harchive.symm.trans harchive₀)
      exact hj.restage rfl rfl ⟨_, Disk.staging_stage _, hpinned, rfl⟩ rfl
  | extractArchiveFails s' e hs =>
      obtain ⟨n, bytes, hpath, -, hroom⟩ := hmay
      cases hpath
      obtain rfl : room = _ := hroom
      exact hj.restage rfl rfl ⟨_, Disk.staging_stage _, trivial⟩ rfl
  | access hs hunpacked hhas =>
      obtain ⟨n, bytes, hpath, hroom⟩ := hmay
      cases hpath
      obtain rfl : room = _ := hroom
      obtain ⟨s₀, hs₀, hpinned, hunpacked₀⟩ := hj.room
      obtain rfl := Option.some.inj (hs.symm.trans hs₀)
      obtain rfl := Option.some.inj (hunpacked.symm.trans hunpacked₀)
      exact hj.still ⟨_, hs, hunpacked, bytes, hpinned, rfl, hhas⟩ rfl .inl
  | accessFails e => exact hj.still hj.room rfl .inl
  | chmod r => cases r <;> exact hj.still hj.room rfl .inl
  | rename hs hunpacked hempty =>
      obtain ⟨n, bytes, hpath, -, hroom, -⟩ := hmay
      cases hpath
      obtain rfl : room = _ := hroom
      obtain ⟨s₀, hs₀, hunpacked₀, htree⟩ := hj.room
      obtain rfl := Option.some.inj (hs.symm.trans hs₀)
      obtain rfl := Option.some.inj (hunpacked.symm.trans hunpacked₀)
      have hnone : d.destination = none := by
        cases hold : d.destination with
        | none => rfl
        | some old =>
            obtain ⟨_, _, _, hhas⟩ := hcomplete old hold
            exact absurd (hempty old hold) (Tree.files_ne_nil hhas)
      refine ⟨⟨⟨_, Disk.staging_stage _, trivial⟩, fun n' hn' => hj.name n' hn', fun _ => ?_⟩,
        ?_, .inl rfl, fun _ hmem => hmem, .inr ⟨hnone, rfl, _, rfl, htree⟩⟩
      · obtain ⟨_, _, _, hhas⟩ := htree
        exact ⟨_, rfl, hhas⟩
      · exact fun n' hne => Disk.staging_stage_of_ne (fun e => hne (by rw [e]; rfl)) _
  | renameFails e => exact hj.still hj.room rfl .inl
  | rm =>
      obtain ⟨n, known, hpath, hroom⟩ := hmay
      cases hpath
      obtain rfl : room = _ := hroom
      exact hj.restage rfl rfl (Disk.staging_stage _) rfl
  | rmFails s' e hs =>
      obtain ⟨n, known, hpath, hroom⟩ := hmay
      cases hpath
      obtain rfl : room = _ := hroom
      exact hj.restage rfl rfl trivial rfl

end Served

/-! ## §5. The invariant. -/

/-- The notes of a caller after what he has done. -/
def Caller.journal (c : Caller) : Journal := c.history.foldl Journal.note Journal.start

/-- What the notes say of the history. -/
structure Noted (h : List (Event FileAns)) (j : Journal) : Prop where
  temporary : ∀ n, ⟨.mkdtemp, .ok n⟩ ∈ h → j.room.number = some n
  left : ∀ n, j.room = .left n → ∃ e, ⟨.rm (.temporary n), .error e⟩ ∈ h

/-- The invariant: every caller runs `ensureUv` and his notes are true, no
two have the same temporary directory, and what is at the destination is
complete and was published by whoever changed it. -/
structure Sound (t : Target) (K : Cache) : Prop where
  runs : ∀ c ∈ K.callers, Run (ensureUv t ()) c.history c.rest
  noted : ∀ c ∈ K.callers, Noted c.history c.journal
  agrees : ∀ c ∈ K.callers, Agrees t K.disk c.journal
  apart : ∀ (i j n : Nat) (ci cj : Caller), K.callers[i]? = some ci → K.callers[j]? = some cj →
    ci.journal.room.number = some n → cj.journal.room.number = some n → i = j
  complete : ∀ tree, K.disk.destination = some tree → t.Complete tree
  changes : ∀ i ∈ K.changes, ∃ c, K.callers[i]? = some c ∧ c.journal.published = true

section Invariant

variable {t : Target} {K K' : Cache}

omit [Toolbox] in
/-- Only a failing `rm` leaves a temporary directory for good. -/
theorem Journal.left_of_note {j : Journal} {e : Event FileAns} {n : Nat}
    (h : (j.note e).room = .left n) :
    j.room = .left n ∨
      ∃ path error known, e = ⟨.rm path, .error error⟩ ∧ j.room = .has n known := by
  obtain ⟨room, seen, published⟩ := j
  obtain ⟨op, r⟩ := e
  cases op with
  | pathExists path =>
      cases r with
      | true => exact .inl h
      | false => exact .inl h
  | rm path =>
      cases r with
      | ok _ => cases room <;> first | exact .inl h | cases h
      | error error =>
          cases room with
          | has n' known =>
              obtain rfl : n' = n := by simpa [Journal.note] using h
              exact .inr ⟨path, error, known, rfl, rfl⟩
          | _ => exact .inl h
  | writeFile path bytes => cases r <;> cases room <;> first | exact .inl h | cases h
  | extractArchive archive directory =>
      cases r with
      | error error => cases room <;> first | exact .inl h | cases h
      | ok _ =>
          cases room with
          | has n' known => cases known <;> cases h
          | _ => exact .inl h
  | mkdir path =>
      cases r with
      | error error => exact .inl h
      | ok _ =>
          cases room with
          | has n' known => cases known <;> cases h
          | _ => exact .inl h
  | access path =>
      cases r with
      | error error => exact .inl h
      | ok _ =>
          cases room with
          | has n' known => cases known <;> cases h
          | _ => exact .inl h
  | rename source target => cases r <;> cases room <;> first | exact .inl h | cases h
  | mkdtemp =>
      cases r with
      | error error => exact .inl h
      | ok n' => cases h
  | fetchArchive url => cases r <;> cases room <;> first | exact .inl h | cases h
  | chmod path => cases r <;> exact .inl h

omit [Toolbox] in
/-- What is published stays published. -/
theorem Journal.published_note {j : Journal} (h : j.published = true) (e : Event FileAns) :
    (j.note e).published = true := by
  unfold Journal.note
  split <;> (try split) <;> first | exact h | rfl

theorem Noted.snoc {h : List (Event FileAns)} {d d' : Disk} {j : Journal} {op : FileOp}
    {r : FileAns op} (hn : Noted h j) (hmay : j.May t op)
    (hmoved : Moved t d d' j (j.note ⟨op, r⟩)) : Noted (h ++ [⟨op, r⟩]) (j.note ⟨op, r⟩) where
  temporary := by
    intro n hmem
    rcases List.mem_append.mp hmem with hold | hnew
    · have hnumber := hn.temporary n hold
      rcases hmoved.number with hsame | ⟨hnone, -⟩
      · rw [hsame, hnumber]
      · rw [hnumber] at hnone
        cases hnone
    · cases List.mem_singleton.mp hnew
      rfl
  left := by
    intro n hleft
    rcases Journal.left_of_note hleft with hold | ⟨path, error, known, he, hroom⟩
    · obtain ⟨e, he⟩ := hn.left n hold
      exact ⟨e, List.mem_append_left _ he⟩
    · cases he
      obtain ⟨n', known', rfl, hroom'⟩ := hmay
      obtain ⟨rfl, -⟩ : n' = n ∧ known' = known := by simpa [hroom] using hroom'.symm
      exact ⟨error, List.mem_append_right _ List.mem_cons_self⟩

theorem Sound.init (staging : Nat → Option Staging) (names : List Nat) :
    Sound t (Cache.init staging names) where
  runs := by simp [Cache.init]
  noted := by simp [Cache.init]
  agrees := by simp [Cache.init]
  apart := by simp [Cache.init]
  complete := by simp [Cache.init]
  changes := by simp [Cache.init]

theorem Sound.call (h : Sound t K) :
    Sound t { K with callers := K.callers ++ [⟨[], ensureUv t ()⟩] } := by
  have hmem : ∀ c ∈ K.callers ++ [(⟨[], ensureUv t ()⟩ : Caller)],
      c ∈ K.callers ∨ c = ⟨[], ensureUv t ()⟩ := by simp
  have hget : ∀ (i n : Nat) (c : Caller),
      (K.callers ++ [(⟨[], ensureUv t ()⟩ : Caller)])[i]? = some c →
      c.journal.room.number = some n → K.callers[i]? = some c := by
    intro i n c hc hn
    rw [List.getElem?_append] at hc
    split at hc
    · exact hc
    · obtain rfl := List.mem_singleton.mp (List.mem_of_getElem? hc)
      cases hn
  refine ⟨fun c hc => ?_, fun c hc => ?_, fun c hc => ?_, ?_, h.complete, ?_⟩
  · rcases hmem c hc with hc | rfl
    · exact h.runs c hc
    · exact .start
  · rcases hmem c hc with hc | rfl
    · exact h.noted c hc
    · exact ⟨fun _ hn => absurd hn List.not_mem_nil, fun _ hn => nomatch hn⟩
  · rcases hmem c hc with hc | rfl
    · exact h.agrees c hc
    · exact ⟨trivial, nofun, nofun⟩
  · intro i j n ci cj hi hj hni hnj
    exact h.apart i j n ci cj (hget i n ci hi hni) (hget j n cj hj hnj) hni hnj
  · intro i hi
    obtain ⟨c, hc, hpublished⟩ := h.changes i hi
    exact ⟨c, by rw [List.getElem?_append_left (List.getElem?_eq_some_iff.mp hc).1, hc], hpublished⟩

/-- What the others know stays true while one caller moves. -/
theorem Agrees.frame {d d' : Disk} {j j' : Journal} (h : Agrees t d j)
    {own : Journal} (hmoved : Moved t d d' own j')
    (hother : ∀ n, j.room.number = some n → j'.room.number ≠ some n) : Agrees t d' j where
  room := by
    have hroom := h.room
    cases hj : j.room with
    | outside => trivial
    | has n known =>
        rw [hj] at hroom
        obtain ⟨s, hs, hknown⟩ := hroom
        exact ⟨s, by rw [hmoved.frame n (hother n (by rw [hj]; rfl)), hs], hknown⟩
    | gone n =>
        rw [hj] at hroom
        show d'.staging n = none
        rw [hmoved.frame n (hother n (by rw [hj]; rfl))]
        exact hroom
    | left n => trivial
  name := fun n hn => hmoved.names n (h.name n hn)
  seen := by
    intro hseen
    obtain ⟨tree, htree, hhas⟩ := h.seen hseen
    rcases hmoved.destination with hsame | ⟨hnone, -⟩
    · exact ⟨tree, by rw [hsame, htree], hhas⟩
    · rw [htree] at hnone
      cases hnone

/-- One operation of a caller, as the invariant sees it. -/
theorem Sound.moved (h : Sound t K) {c : Caller} {op : FileOp}
    {k : FileAns op → Prog FileOp FileAns (Except JsError Place × Unit)} {r : FileAns op}
    {disk : Disk} (hc : c ∈ K.callers) (hrest : c.rest = .op op k)
    (hserve : Disk.Serves t K.disk op r disk) :
    c.journal.May t op ∧ Moved t K.disk disk c.journal (c.journal.note ⟨op, r⟩) := by
  have hmay : c.journal.May t op :=
    wp_run_head (wp_ensureUv t) (h.runs c hc) (by rw [hrest]; rfl)
  exact ⟨hmay, hserve.moved (h.agrees c hc) hmay h.complete⟩

/-- **The step lemma**: an operation of one caller keeps the invariant. -/
theorem Sound.act (h : Sound t K) {i : Nat} {c : Caller} {op : FileOp}
    {k : FileAns op → Prog FileOp FileAns (Except JsError Place × Unit)} {r : FileAns op}
    {disk : Disk} (hi : K.callers[i]? = some c) (hrest : c.rest = .op op k)
    (hserve : Disk.Serves t K.disk op r disk) :
    Sound t
      { disk := disk
        callers := K.callers.set i ⟨c.history ++ [⟨op, r⟩], k r⟩
        changes :=
          if disk.destination = K.disk.destination then K.changes else K.changes ++ [i] } := by
  have hc : c ∈ K.callers := List.mem_of_getElem? hi
  obtain ⟨hmay, hmoved⟩ := h.moved hc hrest hserve
  generalize hc' : (⟨c.history ++ [⟨op, r⟩], k r⟩ : Caller) = c'
  have hjournal : c'.journal = c.journal.note ⟨op, r⟩ := by
    rw [← hc', Caller.journal, List.foldl_append]
    rfl
  rw [← hjournal] at hmoved
  have hget : ∀ (j : Nat) (d : Caller), (K.callers.set i c')[j]? = some d →
      (j = i ∧ d = c') ∨ (j ≠ i ∧ K.callers[j]? = some d) := by
    intro j d hd
    rw [List.getElem?_set] at hd
    split at hd
    · rename_i hij
      split at hd
      · exact .inl ⟨hij.symm, (Option.some.inj hd).symm⟩
      · cases hd
    · rename_i hij
      exact .inr ⟨fun e => hij e.symm, hd⟩
  have hmem : ∀ d ∈ K.callers.set i c',
      d = c' ∨ ∃ j : Nat, j ≠ i ∧ K.callers[j]? = some d := by
    intro d hd
    obtain ⟨j, hj⟩ := List.mem_iff_getElem?.mp hd
    rcases hget j d hj with ⟨-, rfl⟩ | hold
    · exact .inl rfl
    · exact .inr ⟨j, hold⟩
  -- a directory is the caller's own, or a new one that nobody has
  have hother : ∀ (j : Nat) (d : Caller), j ≠ i → K.callers[j]? = some d →
      ∀ n, d.journal.room.number = some n → c'.journal.room.number ≠ some n := by
    intro j d hne hj n hdn hcn
    rcases hmoved.number with hsame | ⟨-, n', hn', hfresh⟩
    · exact hne (h.apart j i n d c hj hi hdn (by rw [← hsame, hcn]))
    · obtain rfl := Option.some.inj (hcn.symm.trans hn')
      exact hfresh ((h.agrees d (List.mem_of_getElem? hj)).name n hdn)
  refine ⟨?_, ?_, ?_, ?_, ?_, ?_⟩
  · intro d hd
    rcases hmem d hd with rfl | ⟨j, -, hj⟩
    · have hrun := h.runs c hc
      rw [hrest] at hrun
      rw [← hc']
      exact hrun.step r
    · exact h.runs d (List.mem_of_getElem? hj)
  · intro d hd
    rcases hmem d hd with rfl | ⟨j, -, hj⟩
    · rw [hjournal] at hmoved ⊢
      rw [← hc']
      exact (h.noted c hc).snoc hmay hmoved
    · exact h.noted d (List.mem_of_getElem? hj)
  · intro d hd
    rcases hmem d hd with rfl | ⟨j, hne, hj⟩
    · exact hmoved.agrees
    · exact (h.agrees d (List.mem_of_getElem? hj)).frame hmoved (hother j d hne hj)
  · intro j j' n d d' hd hd' hn hn'
    rcases hget j d hd with ⟨rfl, rfl⟩ | ⟨hne, hold⟩
    · rcases hget j' d' hd' with ⟨rfl, rfl⟩ | ⟨hne', hold'⟩
      · rfl
      · exact absurd hn (hother j' d' hne' hold' n hn')
    · rcases hget j' d' hd' with ⟨rfl, rfl⟩ | ⟨hne', hold'⟩
      · exact absurd hn' (hother j d hne hold n hn)
      · exact h.apart j j' n d d' hold hold' hn hn'
  · intro tree htree
    rcases hmoved.destination with hsame | ⟨-, -, tree', htree', hcomplete⟩
    · exact h.complete tree (by rw [← hsame]; exact htree)
    · obtain rfl := Option.some.inj (htree'.symm.trans htree)
      exact hcomplete
  · have hlt : i < K.callers.length := (List.getElem?_eq_some_iff.mp hi).1
    have hkeep : ∀ j ∈ K.changes, ∃ d, (K.callers.set i c')[j]? = some d ∧
        d.journal.published = true := by
      intro j hj
      obtain ⟨d, hd, hpublished⟩ := h.changes j hj
      by_cases hij : j = i
      · subst hij
        obtain rfl : d = c := Option.some.inj (hd.symm.trans hi)
        refine ⟨c', List.getElem?_set_self hlt, ?_⟩
        rw [hjournal]
        exact Journal.published_note hpublished _
      · exact ⟨d, by rw [List.getElem?_set_ne fun e => hij e.symm, hd], hpublished⟩
    intro j hj
    have hj' : j ∈ (if disk.destination = K.disk.destination then K.changes
        else K.changes ++ [i]) := hj
    split at hj'
    · exact hkeep j hj'
    · rename_i hchanged
      rcases List.mem_append.mp hj' with hj' | hj'
      · exact hkeep j hj'
      · obtain rfl := List.mem_singleton.mp hj'
        rcases hmoved.destination with hsame | ⟨-, hpublished, -⟩
        · exact absurd hsame hchanged
        · exact ⟨c', List.getElem?_set_self hlt, hpublished⟩

theorem Sound.step (h : Sound t K) (hstep : K.Step t K') : Sound t K' := by
  cases hstep with
  | call => exact h.call
  | act hi hrest hserve => exact h.act hi hrest hserve

/-- **The run lemma.** -/
theorem Sound.of_reach {staging : Nat → Option Staging} {names : List Nat}
    (hr : Cache.Reach t (Cache.init staging names) K) : Sound t K := by
  induction hr with
  | init => exact Sound.init staging names
  | step _ hstep ih => exact ih.step hstep

/-- What is at the destination stays there. -/
theorem Sound.destination_step (h : Sound t K) (hstep : K.Step t K') {tree : Tree}
    (htree : K.disk.destination = some tree) : K'.disk.destination = some tree := by
  cases hstep with
  | call => exact htree
  | act hi hrest hserve =>
      obtain ⟨-, hmoved⟩ := h.moved (List.mem_of_getElem? hi) hrest hserve
      rcases hmoved.destination with hsame | ⟨hnone, -⟩
      · exact hsame.trans htree
      · rw [htree] at hnone
        cases hnone

theorem Sound.destination_reach (h : Sound t K) (hr : Cache.Reach t K K') {tree : Tree}
    (htree : K.disk.destination = some tree) : K'.disk.destination = some tree := by
  have hsound : Sound t K' ∧ K'.disk.destination = some tree := by
    induction hr with
    | init => exact ⟨h, htree⟩
    | step _ hstep ih => exact ⟨ih.1.step hstep, ih.1.destination_step hstep ih.2⟩
  exact hsound.2

/-- How a caller has settled. -/
theorem Sound.settled (h : Sound t K) {c : Caller} (hc : c ∈ K.callers)
    {r : Except JsError Place} (hrest : c.rest = .ret (r, ())) : c.journal.Settled r := by
  have hrun := h.runs c hc
  rw [hrest] at hrun
  exact wp_run_ret (wp_ensureUv t) hrun

/-- The caller's `rm` has failed. -/
def Caller.RmFailed (c : Caller) : Prop :=
  ∃ n error, (⟨.rm (.temporary n), .error error⟩ : Event FileAns) ∈ c.history

/-- **Verified, atomic installation.**  In every state of every execution by
any number of callers, each of whom may fail wherever he awaits something:
what is at the destination is a complete tree extracted from bytes with the
pinned digest, and it stays; a caller that resolves names an executable that
is there; and unless his `rm` has failed, one that rejects has not changed
the destination, and no caller's temporary directory outlives his call. -/
theorem Cache.verified_installation {staging : Nat → Option Staging} {names : List Nat}
    (hr : Cache.Reach t (Cache.init staging names) K) :
    (∀ tree, K.disk.destination = some tree → t.Complete tree) ∧
    (∀ tree K', K.disk.destination = some tree → Cache.Reach t K K' →
      K'.disk.destination = some tree) ∧
    (∀ c ∈ K.callers, ∀ path, c.rest = .ret (.ok path, ()) → path = .executable ∧
      ∃ tree, K.disk.destination = some tree ∧ tree.has t.executableName = true) ∧
    (∀ (i : Nat) (c : Caller), K.callers[i]? = some c → ∀ e, c.rest = .ret (.error e, ()) →
      ¬ c.RmFailed → i ∉ K.changes) ∧
    (∀ c ∈ K.callers, ∀ r, c.rest = .ret (r, ()) → ¬ c.RmFailed →
      ∀ n, ⟨.mkdtemp, .ok n⟩ ∈ c.history → K.disk.staging n = none) := by
  have h : Sound t K := Sound.of_reach hr
  refine ⟨h.complete, fun tree K' htree hr' => h.destination_reach hr' htree, ?_, ?_, ?_⟩
  · intro c hc path hrest
    obtain ⟨hpath, hseen, -⟩ := h.settled hc hrest
    exact ⟨hpath, (h.agrees c hc).seen hseen⟩
  · intro i c hi e hrest hrm hchanged
    have hc := List.mem_of_getElem? hi
    obtain ⟨c₀, hc₀, hpublished⟩ := h.changes i hchanged
    obtain rfl : c₀ = c := Option.some.inj (hc₀.symm.trans hi)
    obtain ⟨-, hleft⟩ := h.settled hc hrest
    obtain ⟨n, hn⟩ := hleft hpublished
    obtain ⟨error, herror⟩ := (h.noted c₀ hc).left n hn
    exact hrm ⟨n, error, herror⟩
  · intro c hc r hrest hrm n hn
    have hnumber := (h.noted c hc).temporary n hn
    have hroom := (h.agrees c hc).room
    have hno : ∀ n known, c.journal.room ≠ .has n known := by
      have hsettled := h.settled hc hrest
      cases r with
      | ok path => exact hsettled.2.2
      | error e => exact hsettled.1
    cases hj : c.journal.room with
    | outside =>
        rw [hj] at hnumber
        cases hnumber
    | has n' known => exact absurd hj (hno n' known)
    | gone n' =>
        rw [hj] at hnumber hroom
        obtain rfl := Option.some.inj hnumber
        exact hroom
    | left n' =>
        obtain ⟨error, herror⟩ := (h.noted c hc).left n' hj
        exact absurd ⟨n', error, herror⟩ hrm

/-- What caller `i` awaits settles. -/
theorem Cache.Reach.answer {K₀ : Cache} (h : Cache.Reach t K₀ K) (i : Nat) (op : FileOp)
    (r : FileAns op) {c : Caller}
    {k : FileAns op → Prog FileOp FileAns (Except JsError Place × Unit)} {disk : Disk}
    (hc : K.callers[i]? = some c) (hrest : c.rest = .op op k)
    (hserve : Disk.Serves t K.disk op r disk) :
    Cache.Reach t K₀
      { disk := disk
        callers := K.callers.set i ⟨c.history ++ [⟨op, r⟩], k r⟩
        changes :=
          if disk.destination = K.disk.destination then K.changes else K.changes ++ [i] } :=
  h.step (.act hc hrest hserve)

end Invariant

end World

/-- A digest and an archive that stand for themselves. -/
abbrev Toolbox.sample : Toolbox := ⟨fun _ => "digest", fun bytes => ⟨[("uv", bytes)]⟩⟩

def Target.sample : Target := ⟨"linux", "x64", [("linux-x64", "uv.tar.gz", "digest")]⟩

/-- One caller whose every step succeeds, standing at its `rm`. -/
theorem Cache.reach_published :
    let _ := Toolbox.sample
    ∃ (K : Cache) (c : Caller)
      (k : Except JsError Unit → Prog FileOp FileAns (Except JsError Place × Unit)),
      Cache.Reach Target.sample (Cache.init (fun _ => none) []) K ∧
      K.callers[0]? = some c ∧ c.rest = .op (.rm (.temporary 0)) k ∧
      (∀ e, k (.error e) = .ret (.error e, ())) ∧ k (.ok ()) = .ret (.ok .executable, ()) ∧
      K.changes = [0] ∧ ⟨.mkdtemp, .ok 0⟩ ∈ c.history ∧ ¬ c.RmFailed ∧
      K.disk.staging 0 = some ⟨some [], none⟩ := by
  intro _
  have h := (Cache.Reach.init :
      Cache.Reach Target.sample (Cache.init (fun _ => none) []) _)
    |>.step .call
    |>.answer 0 (.pathExists .executable) false rfl rfl .notFound
    |>.answer 0 (.mkdir .root) (.ok ()) rfl rfl (.mkdirRoot _)
    |>.answer 0 .mkdtemp (.ok 0) rfl rfl (.mkdtemp List.not_mem_nil)
    |>.answer 0 (.fetchArchive _) (.ok []) rfl rfl (.fetchArchive _ _)
    |>.answer 0 (.writeFile (.archive 0) []) (.ok ()) rfl rfl (.writeFile [] rfl)
    |>.answer 0 (.mkdir (.unpacked 0)) (.ok ()) rfl rfl (.mkdirUnpacked rfl rfl)
    |>.answer 0 (.extractArchive _ _) (.ok ()) rfl rfl (.extractArchive rfl rfl)
    |>.answer 0 (.access _) (.ok ()) rfl rfl (.access rfl rfl rfl)
    |>.answer 0 (.chmod _) (.ok ()) rfl rfl (.chmod _)
    |>.answer 0 (.rename _ _) (.ok ()) rfl rfl (.rename rfl rfl nofun)
  refine ⟨_, _, _, h, rfl, rfl, fun _ => rfl, rfl, rfl, ?_, ?_, rfl⟩
  · simp
  · rintro ⟨n, error, hmem⟩
    simp at hmem

/-- Where `rm` fails, the call is rejected with the tree published and the
temporary directory left. -/
theorem Cache.rejected_and_published :
    let _ := Toolbox.sample
    ∃ (K : Cache) (c : Caller) (e : JsError),
      Cache.Reach Target.sample (Cache.init (fun _ => none) []) K ∧
      K.callers[0]? = some c ∧ c.rest = .ret (.error e, ()) ∧ 0 ∈ K.changes ∧
      ⟨.mkdtemp, .ok 0⟩ ∈ c.history ∧ K.disk.staging 0 ≠ none := by
  intro _
  obtain ⟨K, c, k, hr, hc, hrest, hfails, -, hchanges, htemporary, -, hstaging⟩ :=
    Cache.reach_published
  have hr' := hr.answer 0 (.rm (.temporary 0)) (.error ⟨"EBUSY"⟩) hc hrest
    (.rmFails ⟨none, none⟩ _ hstaging)
  refine ⟨_, _, ⟨"EBUSY"⟩, hr', List.getElem?_set_self (List.getElem?_eq_some_iff.mp hc).1,
    hfails _, ?_, List.mem_append_left _ htemporary, ?_⟩
  · show 0 ∈ if K.disk.destination = K.disk.destination then K.changes else _
    rw [if_pos rfl, hchanges]
    exact List.mem_cons_self
  · show (K.disk.stage 0 _).staging 0 ≠ none
    rw [Disk.staging_stage]
    simp

/-- A caller that has installed the tree. -/
theorem Cache.verified_installation_one :
    let _ := Toolbox.sample
    ∃ (K : Cache) (c : Caller),
      Cache.Reach Target.sample (Cache.init (fun _ => none) []) K ∧
      c ∈ K.callers ∧ c.rest = .ret (.ok .executable, ()) ∧ ¬ c.RmFailed ∧
      (∃ tree, K.disk.destination = some tree ∧ Target.sample.Complete tree) ∧
      K.disk.staging 0 = none := by
  intro _
  obtain ⟨K, c, k, hr, hc, hrest, -, hsucceeds, -, htemporary, hrm, hstaging⟩ :=
    Cache.reach_published
  have hr' := hr.answer 0 (.rm (.temporary 0)) (.ok ()) hc hrest .rm
  have hc' := List.getElem?_set_self (a := (⟨c.history ++ [⟨.rm (.temporary 0), .ok ()⟩],
    k (.ok ())⟩ : Caller)) (List.getElem?_eq_some_iff.mp hc).1
  have hrm' : ¬ Caller.RmFailed ⟨c.history ++ [⟨.rm (.temporary 0), .ok ()⟩], k (.ok ())⟩ := by
    rintro ⟨n, error, hmem⟩
    rcases List.mem_append.mp hmem with hmem | hmem
    · exact hrm ⟨n, error, hmem⟩
    · simp at hmem
  obtain ⟨hcomplete, -, hresolves, -, hgone⟩ := Cache.verified_installation hr'
  obtain ⟨-, tree, htree, -⟩ := hresolves _ (List.mem_of_getElem? hc') _ hsucceeds
  exact ⟨_, _, hr', List.mem_of_getElem? hc', hsucceeds, hrm', ⟨tree, htree, hcomplete tree htree⟩,
    hgone _ (List.mem_of_getElem? hc') _ hsucceeds hrm' 0 (List.mem_append_left _ htemporary)⟩

end CodexRemoteBridge.Launcher
