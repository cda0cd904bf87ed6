/-!
# Scoring profiles

A profile says what a candidate is looking for: lists of patterns and words for the parts of the
score, and places with points.  It is plain data; the scorer compiles it once.
-/

namespace Shortlist

/-- What a candidate is looking for. -/
structure Profile where
  /-- Job titles that fit exactly. -/
  titlePatterns : List String := []
  /-- Words of the field. -/
  broadKeywords : List String := []
  /-- Words of the field in a second language, matched also inside of words. -/
  secondaryKeywords : List String := []
  /-- What in a title rules a posting out. -/
  negativePatterns : List String := []
  /-- Tools and skills. -/
  toolKeywords : List String := []
  /-- Places with their points; only the best place counts. -/
  locationScores : List (String × UInt8) := []
  /-- Words that make a social post relevant by themselves. -/
  narrowKeywords : List String := []
  /-- Words that show that a social post is about a job. -/
  hiringIndicators : List String := []
  /-- Further words of the field that count on freelance platforms. -/
  freelanceExtraKeywords : List String := []
deriving Repr, DecidableEq

namespace Profile

/-- A profile that looks for nothing. -/
def blank : Profile := {}

/-- The built-in profile: a designer of products, images and spaces. -/
def standard : Profile where
  titlePatterns :=
    [ r"(?:Senior\s+)?Product\s+Designer", r"(?:Senior\s+)?3D\s+Artist",
      r"(?:Senior\s+)?CGI\s+Artist", r"(?:Senior\s+)?UI/?UX\s+Designer",
      r"(?:Senior\s+)?Motion\s+(?:Graphics?\s+)?Designer", r"(?:Senior\s+)?Art\s+Director",
      r"(?:Senior\s+)?Creative\s+Director", r"(?:Senior\s+)?Visual\s+Designer",
      r"(?:Senior\s+)?Digital\s+(?:Product\s+)?Designer", r"(?:Senior\s+)?Graphic\s+Designer",
      r"Generative\s+AI\s+Designer", r"VFX\s+Artist", r"3D\s+Visualizer", r"Blender\s+Artist",
      r"Unreal\s+(?:Engine\s+)?(?:Artist|Developer|Designer)", r"مصمم\s+منتجات",
      r"مصمم\s+جرافيك", r"مصمم\s+ثلاثي", r"فنان\s+CGI", r"مدير\s+فني", r"مدير\s+ابداعي" ]
  broadKeywords :=
    [ "Designer", "Artist", "Art Director", "Creative Director", "3D", "CGI", "VFX",
      "Visualizer", "Product", "UI", "UX", "Motion", "Animation", "Unreal", "Blender", "Figma",
      "Generative", "AI", "Graphic", "Creative", "Frontend", "Web", "Digital", "DOOH",
      "Anamorphic" ]
  secondaryKeywords :=
    [ "مصمم", "ديزاينر", "فنان", "مدير فني", "مدير ابداعي", "ثلاثي", "ثري دي", "جرافيك",
      "موشن", "تصميم", "واجهة", "رندر", "بلندر", "انريل", "فيجما", "مونتاج", "انيميشن", "VFX",
      "CGI" ]
  negativePatterns :=
    [ r"\bWaiter\b", r"\bWaitress\b", r"\bChef\b", r"\bCook\b", r"\bDriver\b", r"\bCleaner\b",
      r"\bSecurity\s+Guard\b", r"\bAccountant\b", r"\bNurse\b", r"\bDoctor\b",
      r"\bPharmacist\b", r"\bTeacher\b", r"\bProfessor\b", r"\bLecturer\b", r"\bMechanic\b",
      r"\bElectrician\b", r"\bPlumber\b", r"\bSales\s+(?:Rep|Executive|Agent)\b",
      r"\bCall\s+Center\b", r"\bCustomer\s+Service\b", r"\bData\s+Entry\b",
      r"\bReceptionist\b", r"\bHR\s+(?:Manager|Specialist|Officer)\b", r"\bLawyer\b",
      r"\bLegal\b", r"\bSustainability\b", r"\bannounces\b", r"\blaunches\b",
      r"\bwins\s+award\b", r"\bpartners\s+with\b", r"\bquarterly\s+results\b",
      r"\bpress\s+release\b", r"\bour\s+journey\b", r"\bwe\s+are\s+proud\b",
      r"\bin\s+the\s+news\b", r"\bcompany\s+update\b", r"\breported\s+revenue\b",
      r"\bacquires\b", r"\braises\s+\$", r"\bIPO\b" ]
  toolKeywords :=
    [ "Blender", r"Unreal\s*Engine", "Figma", r"Cinema\s*4D", "C4D", r"After\s*Effects",
      "Photoshop", "Illustrator", "Premiere", "Substance", "ZBrush", "Maya", "Houdini",
      "Midjourney", r"Stable\s*Diffusion", r"DALL[-\s]?E", "ComfyUI", r"Three\.?js", "WebGL",
      "React", r"Next\.?js", "DaVinci", "Nuke" ]
  locationScores :=
    [ ("remote", 20), ("egypt", 15), ("cairo", 15), ("alexandria", 10), ("saudi", 15),
      ("riyadh", 15), ("jeddah", 12), ("neom", 18), ("ksa", 15), ("uae", 12), ("dubai", 12),
      ("abu dhabi", 10), ("qatar", 8), ("doha", 8), ("kuwait", 8), ("germany", 10),
      ("berlin", 10), ("europe", 8), ("uk", 8), ("netherlands", 8), ("عن بعد", 20),
      ("ريموت", 20), ("مصر", 15), ("القاهرة", 15), ("السعودية", 15), ("الرياض", 15),
      ("جدة", 12), ("الامارات", 12), ("دبي", 12) ]
  narrowKeywords :=
    [ "Designer", "Artist", "3D", "CGI", "VFX", "Blender", "Unreal", "Figma", "Art Director",
      "Creative Director", "Motion Graphics", "UI/?UX", "DOOH", "Anamorphic", "Generative AI" ]
  hiringIndicators :=
    [ "hiring", "looking for", "seeking", "wanted", "job", "position", "opening", "role",
      "apply", "join", "opportunity", "remote", "freelance", "مطلوب", "وظيفة", "توظيف", "نبحث" ]
  freelanceExtraKeywords :=
    [ "Logo", "Video", "Render", "Model" ]

end Profile

end Shortlist
