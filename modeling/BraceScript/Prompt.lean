import BraceScript.Place

/-!
# The shell's prompt

A prompt is a format in which three placeholders are filled in, one after the other: the user's
name, the working directory with the home directory shortened to `~`, and the working directory as
it is. What an earlier placeholder brings in is searched for the later ones.
-/

namespace BraceScript
namespace Prompt

/-- The working directory, shortened where it is the home directory. -/
def shortened (directory : String) (home : Option String) : String :=
  if home.any (Path.agree · directory) then "~" else directory

/-- The prompt that a format makes. -/
def render (format user directory : String) (home : Option String) : String :=
  let named := Text.replace format "\x7bUsername\x7d" user
  let placed :=
    Text.replace named "\x7bCurrentDirectoryWithSimplifyIfHome\x7d" (shortened directory home)
  Text.replace placed "\x7bCurrentDirectory\x7d" directory

/-- The prompt that a format makes at a place. -/
def renderAt (format : String) (place : Place) : String :=
  render format (place.user.getD "") (place.directory.getD ".") place.home

end Prompt
end BraceScript
