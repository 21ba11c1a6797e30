import Mathlib.Algebra.Group.Nat.Defs
import StagedFormat.Proofs.StartupLeftovers

/-! Records in lock files. What a daemon writes through its lock is all that is in the file then, so whoever
reads the file gets the record. Two numbers that fit make a record, and nothing else does. -/

namespace StagedFormat.Proofs.LockRecords
open StagedFormat Daemon DiskFollowing LockExclusion DaemonExclusion StartupLeftovers RecordTexts

/-- A record that is written through a lock is read at its path, if the path still leads to the locked file. -/
theorem read_writeRecord {path : Path} {file : FileId} {space : LockSpace}
    (linked : Lock.isLinked space.disk path file = true) (record : Record) :
    ∃ written, Lock.writeRecord { path, file := some file } record space = (.ok (), written) ∧
      written.disk.readText path = .ok record.text ∧ Record.read written.disk path = .ok (some record) := by
  refine ⟨_, writeRecord_held rfl record space, ?_, read_writeOpened linked record⟩
  exact readText_iff.mpr (readBytes_ok.mp (readBytes_writeOpened linked _))

/-- Whatever is in the file that a lock holds and its path leads to, a record that is written through the lock
is all that is read there afterwards. A text is read as a record exactly if it shows two numbers that fit into
32 and 16 bits: these are the record's version and port then. -/
theorem record_codec :
    (∀ (path : Path) (file : FileId) (space : LockSpace), Lock.isLinked space.disk path file = true →
      ∀ record : Record, ∃ written,
        Lock.writeRecord { path, file := some file } record space = (.ok (), written) ∧
        written.disk.readText path = .ok record.text ∧
        Record.read written.disk path = .ok (some record)) ∧
    ∀ text : String,
      (∀ record : Record, Record.parse text = .ok record ↔ Shows text record.version.toNat record.port.toNat) ∧
      ((∃ record, Record.parse text = .ok record) ↔
        ∃ version port, Shows text version port ∧ version < 2 ^ 32 ∧ port < 2 ^ 16) := by
  refine ⟨fun _ _ _ linked record => read_writeRecord linked record, fun text => ⟨fun _ => parse_iff, ?_, ?_⟩⟩
  · rintro ⟨record, parsed⟩
    exact ⟨_, _, parse_iff.mp parsed, record.version.toNat_lt, record.port.toNat_lt⟩
  · rintro ⟨version, port, shown, fits, within⟩
    refine ⟨{ version := version.toUInt32, port := port.toUInt16 }, parse_iff.mpr ?_⟩
    rwa [UInt32.toNat_ofNat_of_lt' fits, UInt16.toNat_ofNat_of_lt' within]

theorem record_codec_over_garbage :
    Lock.isLinked (crashed "1 65000 trailing garbage".toUTF8).space.disk (lockPath ⟨"/r"⟩) 0 = true ∧
    ∃ written,
      Lock.writeRecord ⟨lockPath ⟨"/r"⟩, some 0⟩ ⟨2, 80⟩ (crashed "1 65000 trailing garbage".toUTF8).space =
        (.ok (), written) ∧
      written.disk.readText (lockPath ⟨"/r"⟩) = .ok "2 80" ∧
      Record.read written.disk (lockPath ⟨"/r"⟩) = .ok (some ⟨2, 80⟩) :=
  ⟨by rfl, record_codec.1 _ _ _ (by rfl) ⟨2, 80⟩⟩

end StagedFormat.Proofs.LockRecords
