/-! Notes in the output. What cannot be written leaves a note in its place, so that a long run still
ends with a whole text. -/
namespace TemplateEngine

def placeholder (subject reason : String) : String :=
  "[?" ++ subject ++ ": " ++ reason ++ "]"

end TemplateEngine
