/-!
# Letters without their accents

The small letters from a to z to which letters with one accent are reduced.
-/

namespace UsageAudit.Text

/-- The letters that are small letters from a to z once case and accent are taken away. -/
def accented : List (Char × String) := [
    ('a', "ÀÁÂÃÄÅàáâãäåĀāĂăĄąǍǎȀȁȂȃȦȧḀḁẠạẢảÅ"),
    ('b', "ḂḃḄḅḆḇ"),
    ('c', "ÇçĆćĈĉĊċČč"),
    ('d', "ĎďḊḋḌḍḎḏḐḑḒḓ"),
    ('e', "ÈÉÊËèéêëĒēĔĕĖėĘęĚěȄȅȆȇȨȩḘḙḚḛẸẹẺẻẼẽ"),
    ('f', "Ḟḟ"),
    ('g', "ĜĝĞğĠġĢģǦǧǴǵḠḡ"),
    ('h', "ĤĥȞȟḢḣḤḥḦḧḨḩḪḫẖ"),
    ('i', "ÌÍÎÏìíîïĨĩĪīĬĭĮįİǏǐȈȉȊȋḬḭỈỉỊị"),
    ('j', "Ĵĵǰ"),
    ('k', "ĶķǨǩḰḱḲḳḴḵK"),
    ('l', "ĹĺĻļĽľḶḷḺḻḼḽ"),
    ('m', "ḾḿṀṁṂṃ"),
    ('n', "ÑñŃńŅņŇňǸǹṄṅṆṇṈṉṊṋ"),
    ('o', "ÒÓÔÕÖòóôõöŌōŎŏŐőƠơǑǒǪǫȌȍȎȏȮȯỌọỎỏ"),
    ('p', "ṔṕṖṗ"),
    ('r', "ŔŕŖŗŘřȐȑȒȓṘṙṚṛṞṟ"),
    ('s', "ŚśŜŝŞşŠšſȘșṠṡṢṣẛ"),
    ('t', "ŢţŤťȚțṪṫṬṭṮṯṰṱẗ"),
    ('u', "ÙÚÛÜùúûüŨũŪūŬŭŮůŰűŲųƯưǓǔȔȕȖȗṲṳṴṵṶṷỤụỦủ"),
    ('v', "ṼṽṾṿ"),
    ('w', "ŴŵẀẁẂẃẄẅẆẇẈẉẘ"),
    ('x', "ẊẋẌẍ"),
    ('y', "ÝýÿŶŷŸȲȳẎẏẙỲỳỴỵỶỷỸỹ"),
    ('z', "ŹźŻżŽžẐẑẒẓẔẕ")]

/-- The letter in lower case and without its accent. Other characters stay as they are. -/
def unaccented (c : Char) : Char :=
  if c.toNat < 128 then c.toLower
  else
    match accented.find? fun row => row.2.toList.contains c with
    | some (letter, _) => letter
    | none => c

end UsageAudit.Text
