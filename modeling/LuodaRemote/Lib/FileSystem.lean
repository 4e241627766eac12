/-
  A file system as a program sees it, over an arbitrary state `σ` and arbitrary file
  handles `φ`.

  Every call takes the state and gives back its outcome and the new state. Nothing is
  assumed of the calls: any of them may fail at any time, and a call that fails may have
  changed the state. What is proved over a `FileSystem` therefore holds whatever the disk
  does.
-/
import Mathlib.Tactic

namespace LuodaRemote.Lib

/-- What is found at a path without following it. -/
inductive LinkInfo where
  | notFound
  | found (isSymlink : Bool)
  | failed (err : String)
  deriving DecidableEq

structure Metadata where
  len : Nat
  isFile : Bool
  /-- Nanoseconds since the epoch, or why they cannot be had. -/
  modified : Except String Int

structure FileSystem (σ φ : Type) where
  symlinkMetadata : String → σ → LinkInfo
  /-- Follows links. -/
  metadata : String → σ → Except String Metadata
  readToString : String → σ → Except String String
  /-- Create all directories above a path. -/
  createParents : String → σ → Except String Unit × σ
  removeFile : String → σ → Except String Unit × σ
  rename : String → String → σ → Except String Unit × σ
  /-- Set the modification time, in seconds since the epoch. -/
  setFileMtime : String → Nat → σ → Except String Unit × σ
  /-- Replace the content of a file by a text. -/
  writeFile : String → String → σ → Except String Unit × σ
  /-- Open for writing, the content cut off. -/
  create : String → σ → Except String φ × σ
  /-- Open for reading. -/
  openRead : String → σ → Except String φ × σ
  /-- Open for writing, the content kept. -/
  openWrite : String → σ → Except String φ × σ
  /-- Set the position of a handle. -/
  seek : φ → Nat → σ → Except String Unit × σ
  syncAll : φ → σ → Except String Unit × σ
  /-- Write at the position of the handle and move it. -/
  writeAll : φ → List UInt8 → σ → Except String Unit × σ
  /-- Read at most so many bytes at the position of the handle and move it. -/
  read : φ → Nat → σ → Except String (List UInt8) × σ
  fileMetadata : φ → σ → Except String Metadata

namespace FileSystem

variable {σ φ : Type}

/-- Whether there is something at the path that can be followed to its end. -/
def pathExists (fs : FileSystem σ φ) (path : String) (st : σ) : Bool :=
  (fs.metadata path st).isOk

def isFile (fs : FileSystem σ φ) (path : String) (st : σ) : Bool :=
  match fs.metadata path st with
  | .ok m => m.isFile
  | .error _ => false

end FileSystem

/-- Files that do not change while they are read, by calls that do not fail. A read brings a
    piece of any size of what is left, and nothing only at the end. -/
structure StaticFiles {σ φ : Type} (fs : FileSystem σ φ) (content : String → List UInt8)
    (paths : String → Prop) where
  Holds : σ → Prop
  /-- What a handle has still to give. -/
  Left : φ → List UInt8 → σ → Prop
  openRead : ∀ {path st}, paths path → Holds st →
    ∃ f st', fs.openRead path st = (.ok f, st') ∧ Holds st' ∧ Left f (content path) st'
  read : ∀ {f left st n}, 0 < n → Holds st → Left f left st →
    ∃ piece left' st', fs.read f n st = (.ok piece, st') ∧ left = piece ++ left' ∧
      piece.length ≤ n ∧ (piece = [] → left' = []) ∧ Holds st' ∧ Left f left' st'

end LuodaRemote.Lib
