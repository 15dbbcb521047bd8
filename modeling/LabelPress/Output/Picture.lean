import LabelPress.Output.FileSystem
import LabelPress.Output.Path
import LabelPress.Preview.Png
import LabelPress.Preview.Render

/-!
Saving the picture of a label. The extension of the path chooses the format before the file is
touched; PNG is the only format.
-/

namespace LabelPress

def Path.checkPictureExtension (path : String) : Except PictureFault Unit :=
  match extension? path with
  | none => .error .noExtension
  | some extension =>
    if extension.toLower = "png" ∨ extension.toLower = "apng" then .ok ()
    else .error (.unknownExtension extension)

/-- Draws the label first, so a label without dimensions is refused whatever the path. -/
def Label.savePicture {m : Type → Type} [Monad m] [FileSystem m] (l : Label) (path : String) :
    ExceptT Failure m Unit := do
  let canvas ← ofExcept l.preview
  ofExcept ((Path.checkPictureExtension path).mapError (.picture path))
  FileSystem.attempt (fun e => .picture path (.system e))
    (FileSystem.replace path (Png.encode canvas))

end LabelPress
