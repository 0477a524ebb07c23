import Mathlib.Data.BitVec
import Mathlib.Logic.Function.Basic
import Mmemu.Library.MemoryWrites

/-!
# CBM DOS on a host folder

Source: src/plugins/devices/ieee488/main/cbm_host_dos.cpp: the byte calls ACPTR and CIOUT with
the channels, the error channel and the directory buffer they read. A file is what stdio keeps
of it. What a command does and how a directory listing goes on are parameters: neither is
reached through a data channel.
-/
namespace Mmemu.Source.HostDos
open Mmemu.Library.Splice

abbrev Byte := BitVec 8

def CHANNEL_NAME_MAX : ℕ := 79
def CMD_MAX : ℕ := 255

/-! ## Files -/

/-- An open stdio file: `eof` is the stream's end-of-file indicator, `room` the length up to
which the host takes bytes. -/
structure File where
  data : List Byte
  pos : ℕ
  eof : Bool
  append : Bool
  room : ℕ
  deriving DecidableEq

namespace File

/-- Nothing is read once the indicator is set. -/
def fgetc (f : File) : Option Byte × File :=
  if f.eof then (none, f)
  else
    match f.data[f.pos]? with
    | some b => (some b, { f with pos := f.pos + 1 })
    | none => (none, { f with eof := true })

/-- `fseek` clears the indicator. -/
def fseek (f : File) (pos : ℕ) : File := { f with pos, eof := false }

def seekEnd (f : File) : File := f.fseek f.data.length

def fputc (f : File) (v : Byte) : Bool × File :=
  let place := if f.append then f.data.length else f.pos
  if place < f.room then
    let filled := f.data ++ List.replicate (place - f.data.length) 0
    (true, { f with data := splice filled place [v], pos := place + 1 })
  else (false, f)

end File

/-! ## Channels -/

structure Channel where
  name : List Byte
  read : Bool
  write : Bool
  f : Option File
  deriving DecidableEq

/-- The name of a directory. -/
def Channel.directory (ch : Channel) : Prop := ch.name.head? = some 0x24

instance (ch : Channel) : Decidable ch.directory := inferInstanceAs (Decidable (_ = _))

/-- The state of a drive. `errorNote` is what `onErrorFlag` was last called with in this call. -/
structure Dos where
  error : List Byte
  errorPos : ℕ
  errorFlag : Bool
  errorNote : Option Bool
  cmd : List Byte
  channel : ℕ
  listening : Bool
  talking : Bool
  opening : Bool
  dirlist : List Byte
  dirlistPos : ℕ
  dirlistEof : Bool
  channels : ℕ → Channel

namespace Dos

/-- The selected channel. -/
def ch (d : Dos) : Channel := d.channels d.channel

def setCh (d : Dos) (c : Channel) : Dos :=
  { d with channels := Function.update d.channels d.channel c }

/-- `00, OK,00,00` and a CR. -/
def clearError (d : Dos) : Dos :=
  { d with
    error := [0x30, 0x30, 0x2C, 0x20, 0x4F, 0x4B, 0x2C, 0x30, 0x30, 0x2C, 0x30, 0x30, 0x0D]
    errorPos := 0, errorFlag := false, errorNote := some false }

/-- `cclose` of the selected channel. -/
def cclose (d : Dos) : Dos := d.setCh { d.ch with name := [], f := none }

section

variable (command : List Byte → Dos → Dos) (continueDirectoryListing : Dos → List Byte × Dos)

/-- The channel number is a half byte; a reply below 0 is no STATUS. -/
def acptr (a : Byte) (d : Dos) : ℤ × Byte × Dos :=
  if d.talking = false then (-2, a, d)
  else if d.channel = 15 then
    let a := d.error.getD d.errorPos 0
    let d := { d with errorPos := d.errorPos + 1 }
    if d.error.length ≤ d.errorPos then (0x40, a, d.clearError) else (0, a, d)
  else if d.ch.read then
    if d.ch.directory then
      let (a, d) : Byte × Dos :=
        if d.dirlistPos < d.dirlist.length then
          (d.dirlist.getD d.dirlistPos 0, { d with dirlistPos := d.dirlistPos + 1 })
        else (0, d)
      if d.dirlistPos = d.dirlist.length then
        if d.dirlistEof then (0x40, a, d)
        else
          let (dirlist, d) := continueDirectoryListing { d with dirlistPos := 0 }
          (0, a, { d with dirlist })
      else (0, a, d)
    else
      match d.ch.f with
      | none => (0x42, a, d)
      | some f =>
        match f.fgetc with
        | (none, f) => (0x42, 0, d.setCh { d.ch with f := some f })
        | (some c, f) =>
          let cur := f.pos
          let f := f.seekEnd
          if cur = f.pos then (0x40, c, (d.setCh { d.ch with read := false, f := some f }).cclose)
          else (0, c, d.setCh { d.ch with f := some (f.fseek cur) })
  else (0x42, a, d)

/-- A byte of a name, of a command or of a file. -/
def ciout (a : Byte) (d : Dos) : ℤ × Dos :=
  if d.listening = false then (-2, d)
  else if d.opening then
    (0, if d.ch.name.length < CHANNEL_NAME_MAX then d.setCh { d.ch with name := d.ch.name ++ [a] } else d)
  else if d.channel = 15 then
    if a = 13 ∧ d.cmd.getD 0 0 ≠ 0x50 ∧ d.cmd.getD 0 0 ≠ 0x54 ∧
        ¬ (d.cmd.getD 0 0 = 0x55 ∧ d.cmd.getD 1 0 = 0x30 ∧ 2 < d.cmd.length ∧ d.cmd.getD 2 0 ≠ 0x3E) then
      (0, { command d.cmd d with cmd := [] })
    else (0, if d.cmd.length < CMD_MAX then { d with cmd := d.cmd ++ [a] } else d)
  else
    match d.ch.f with
    | some f =>
      if d.ch.write then
        match f.fputc a with
        | (true, f) => (0, d.setCh { d.ch with f := some f })
        | (false, f) => (0x40, d.setCh { d.ch with f := some f })
      else (2, d)
    | none => (2, d)

end

end Dos

end Mmemu.Source.HostDos
