import TradingHours.Proofs.Disk.Holds
import TradingHours.Proofs.World.Lasting
/-!
Conditions on the disk, in the world. A condition about the files at some places lasts, and outputs
that go to other places keep it; so does the file of a path.
-/
namespace TradingHours

open Disk (Path)

namespace Disk

variable {P : Disk → Prop} {K : Place → Prop} {home : Place} {q folder : Path}

theorem keeps_note_of_grow (hgrow : ∀ d bytes, P d → P (d.grow bytes)) (e : Journal.Entry) :
    Keeps (fun w => P w.disk) (Work.note e) := by
  intro w hw
  rw [Work.note, exec_modify]
  dsimp only
  split
  · exact hgrow _ _ hw
  · exact hw

theorem lasting_of_grow (hrefusals : OutlastsRefusals P)
    (hgrow : ∀ d bytes, P d → P (d.grow bytes)) : Lasting fun w => P w.disk where
  noted := fun e _ => keeps_note_of_grow hgrow e
  asked := fun _ _ hw => hw
  counted := fun _ _ hw => hw
  exists? := fun _ => keeps_call (keeps_exists? hrefusals)
  read := fun _ => keeps_call (keeps_read hrefusals)

theorem Bears.keeps_note (hP : Bears home K P) (e : Journal.Entry) :
    Keeps (fun w => P w.disk) (Work.note e) :=
  keeps_note_of_grow (fun _ bytes => hP.grow bytes) e

theorem Bears.lasting (hP : Bears home K P) : Lasting fun w => P w.disk :=
  lasting_of_grow hP.refusals fun _ bytes => hP.grow bytes

theorem Bears.keeps_probeCall (hP : Bears home K P) (hfolders : Keeps P (ensureFolders folder))
    (hq : ¬ K ((folder.child Output.probeName).placeFrom home))
    (herase : ∀ d, P d → d.found? ((folder.child Output.probeName).placeFrom home) ≠ some .folder →
      P (d.erase ((folder.child Output.probeName).placeFrom home))) :
    Keeps (fun w => P w.disk) (Work.call (Output.probeCall folder)) :=
  keeps_call (hfolders.bind fun _ => (hP.keeps_write hq _).bind fun _ =>
    keeps_unlink hP.home_eq herase)

theorem About.keeps_fileCall (hP : About home K P) (hq : ¬ K (q.placeFrom home))
    (lines : List String) : Keeps (fun w => P w.disk) (Work.call (Output.fileCall q lines)) :=
  keeps_call (hP.keeps_ensureFolders.bind fun _ => hP.keeps_write hq _)

theorem About.keeps_probeCall (hP : About home K P)
    (hq : ¬ K ((folder.child Output.probeName).placeFrom home))
    (herase : ∀ d, P d → d.found? ((folder.child Output.probeName).placeFrom home) ≠ some .folder →
      P (d.erase ((folder.child Output.probeName).placeFrom home))) :
    Keeps (fun w => P w.disk) (Work.call (Output.probeCall folder)) :=
  hP.toBears.keeps_probeCall hP.keeps_ensureFolders hq herase

end Disk

def World.Holds (p : Path) (home : Place) (content : Option ByteArray) (w : World) : Prop :=
  w.disk.Holds p home content

namespace World.Holds

variable {p q : Path} {home : Place} {content : Option ByteArray}

theorem keeps_note (e : Journal.Entry) : Keeps (World.Holds p home content) (Work.note e) :=
  Disk.Holds.about.keeps_note e

theorem lasting : Lasting (World.Holds p home content) := Disk.Holds.about.lasting

theorem keeps_fileCall (hq : q.placeFrom home ≠ p.placeFrom home) (lines : List String) :
    Keeps (World.Holds p home content) (Work.call (Output.fileCall q lines)) :=
  Disk.Holds.about.keeps_fileCall hq lines

theorem keeps_probeCall {folder : Path}
    (hq : (folder.child Output.probeName).placeFrom home ≠ p.placeFrom home) :
    Keeps (World.Holds p home content) (Work.call (Output.probeCall folder)) :=
  Disk.Holds.about.keeps_probeCall hq fun _ hd hnot => Disk.Holds.erase hd hq hnot

end World.Holds

end TradingHours
