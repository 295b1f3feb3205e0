namespace Countersign

-- What libraries say about a text that they cannot read. The gate passes their words on behind its
-- own.
class Wording where
  -- About a text that is no identifier.
  uuid : String → String
  -- About a text that is no TOML, or does not hold settings.
  toml : String → String
  -- About arguments that cannot be understood.
  usage : List String → String

-- The words of libraries that do not go into detail.
@[reducible]
def Wording.brief : Wording where
  uuid _ := "not an identifier"
  toml _ := "not the settings of a gate"
  usage _ := "error: arguments that cannot be understood"

end Countersign
