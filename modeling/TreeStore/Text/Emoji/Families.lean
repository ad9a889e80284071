/-!
# Families of names

Two kinds of names follow a rule.  A country has a flag, written with the two letters of its code as
regional indicators, under its own name and with `flag_for_` before it.  A person or a part of the
body has a picture for each of five tones of skin, under the name of the neutral one with the tone
behind it.
-/

namespace TreeStore.Text.Emoji

/-- Countries and the letters of their codes, with commas between the entries. -/
def countryText : String :=
  "afghanistan af, albania al, algeria dz, american_samoa as, andorra ad, angola ao, anguilla ai,
  antarctica aq, antigua_&_barbuda ag, argentina ar, armenia am, aruba aw, ascension_island ac,
  australia au, austria at, azerbaijan az, bahamas bs, bahrain bh, bangladesh bd, barbados bb,
  belarus by, belgium be, belize bz, benin bj, bermuda bm, bhutan bt, bolivia bo,
  bosnia_&_herzegovina ba, botswana bw, bouvet_island bv, brazil br,
  british_indian_ocean_territory io, british_virgin_islands vg, brunei bn, bulgaria bg,
  burkina_faso bf, burundi bi, cambodia kh, cameroon cm, canada ca, canary_islands ic,
  cape_verde cv, caribbean_netherlands bq, cayman_islands ky, central_african_republic cf,
  ceuta_&_melilla ea, chad td, chile cl, china cn, christmas_island cx, clipperton_island cp,
  colombia co, comoros km, cook_islands ck, costa_rica cr, croatia hr, cuba cu, curaçao cw,
  cyprus cy, côte_d’ivoire ci, denmark dk, diego_garcia dg, djibouti dj, dominica dm,
  dominican_republic do, ecuador ec, egypt eg, el_salvador sv, equatorial_guinea gq, eritrea er,
  estonia ee, ethiopia et, european_union eu, falkland_islands fk, faroe_islands fo, fiji fj,
  finland fi, france fr, french_guiana gf, french_polynesia pf, french_southern_territories tf,
  gabon ga, gambia gm, georgia ge, germany de, ghana gh, gibraltar gi, greece gr, greenland gl,
  grenada gd, guadeloupe gp, guam gu, guatemala gt, guernsey gg, guinea gn, guyana gy, haiti ht,
  heard_&_mcdonald_islands hm, honduras hn, hungary hu, iceland is, india in, indonesia id,
  iran ir, iraq iq, ireland ie, isle_of_man im, israel il, italy it, jamaica jm, jersey je,
  jordan jo, kazakhstan kz, kenya ke, kiribati ki, kosovo xk, kuwait kw, kyrgyzstan kg, laos la,
  latvia lv, lebanon lb, lesotho ls, liberia lr, libya ly, liechtenstein li, lithuania lt,
  luxembourg lu, macedonia mk, madagascar mg, malawi mw, malaysia my, maldives mv, mali ml,
  malta mt, marshall_islands mh, martinique mq, mauritania mr, mauritius mu, mayotte yt,
  mexico mx, micronesia fm, moldova md, monaco mc, mongolia mn, montenegro me, montserrat ms,
  morocco ma, mozambique mz, namibia na, nauru nr, nepal np, netherlands nl, new_caledonia nc,
  new_zealand nz, nicaragua ni, niger ne, nigeria ng, niue nu, norfolk_island nf, north_korea kp,
  northern_mariana_islands mp, norway no, oman om, pakistan pk, palau pw,
  palestinian_territories ps, panama pa, papua_new_guinea pg, paraguay py, peru pe,
  philippines ph, pitcairn_islands pn, poland pl, portugal pt, puerto_rico pr, qatar qa,
  romania ro, russia ru, rwanda rw, réunion re, samoa ws, san_marino sm, saudi_arabia sa,
  senegal sn, serbia rs, seychelles sc, sierra_leone sl, singapore sg, sint_maarten sx,
  slovakia sk, slovenia si, solomon_islands sb, somalia so, south_africa za,
  south_georgia_&_south_sandwich_islands gs, south_korea kr, south_sudan ss, spain es,
  sri_lanka lk, st._barthélemy bl, st._helena sh, st._kitts_&_nevis kn, st._lucia lc,
  st._martin mf, st._pierre_&_miquelon pm, st._vincent_&_grenadines vc, sudan sd, suriname sr,
  svalbard_&_jan_mayen sj, swaziland sz, sweden se, switzerland ch, syria sy,
  são_tomé_&_príncipe st, taiwan tw, tajikistan tj, tanzania tz, thailand th, togo tg, tokelau tk,
  tonga to, trinidad_&_tobago tt, tristan_da_cunha ta, tunisia tn, turkmenistan tm,
  turks_&_caicos_islands tc, tuvalu tv, u.s._outlying_islands um, u.s._virgin_islands vi,
  uganda ug, ukraine ua, united_arab_emirates ae, united_kingdom gb, united_states us, uruguay uy,
  uzbekistan uz, vanuatu vu, vatican_city va, venezuela ve, vietnam vn, wallis_&_futuna wf,
  western_sahara eh, yemen ye, zambia zm, zimbabwe zw, åland_islands ax"

/-- The names of the pictures that come in tones of skin, with commas between them. -/
def tonedText : String :=
  "adult, baby, baby_angel, backhand_index_pointing_down, backhand_index_pointing_left,
  backhand_index_pointing_right, backhand_index_pointing_up, bearded_person, blond-haired_man,
  blond-haired_person, blond-haired_woman, boy, breast-feeding, bride_with_veil, call_me_hand,
  child, clapping_hands, construction_worker, crossed_fingers, detective, ear, elf, fairy,
  flexed_biceps, folded_hands, girl, guard, hand_with_fingers_splayed, horse_racing,
  index_pointing_up, left-facing_fist, love-you_gesture, mage, man, man_artist, man_astronaut,
  man_biking, man_bouncing_ball, man_bowing, man_cartwheeling, man_climbing,
  man_construction_worker, man_cook, man_dancing, man_detective, man_elf, man_facepalming,
  man_factory_worker, man_fairy, man_farmer, man_firefighter, man_frowning, man_gesturing_no,
  man_gesturing_ok, man_getting_haircut, man_getting_massage, man_golfing, man_guard,
  man_health_worker, man_in_lotus_position, man_in_steamy_room, man_in_suit_levitating,
  man_in_tuxedo, man_judge, man_juggling, man_lifting_weights, man_mage, man_mechanic,
  man_mountain_biking, man_office_worker, man_pilot, man_playing_handball, man_playing_water_polo,
  man_police_officer, man_pouting, man_raising_hand, man_rowing_boat, man_running, man_scientist,
  man_shrugging, man_singer, man_student, man_surfing, man_swimming, man_teacher,
  man_technologist, man_tipping_hand, man_vampire, man_walking, man_wearing_turban,
  man_with_chinese_cap, mermaid, merman, merperson, middle_finger, mrs._claus, nail_polish, nose,
  ok_hand, old_man, old_woman, older_adult, oncoming_fist, open_hands, palms_up_together,
  person_biking, person_bouncing_ball, person_bowing, person_cartwheeling, person_climbing,
  person_facepalming, person_frowning, person_gesturing_no, person_gesturing_ok,
  person_getting_haircut, person_getting_massage, person_golfing, person_in_bed,
  person_in_lotus_position, person_in_steamy_room, person_juggling, person_lifting_weights,
  person_mountain_biking, person_playing_handball, person_playing_water_polo, person_pouting,
  person_raising_hand, person_rowing_boat, person_running, person_shrugging, person_surfing,
  person_swimming, person_taking_bath, person_tipping_hand, person_walking, person_wearing_turban,
  police_officer, pregnant_woman, prince, princess, raised_back_of_hand, raised_fist, raised_hand,
  raising_hands, right-facing_fist, santa_claus, selfie, sign_of_the_horns, snowboarder,
  thumbs_down, thumbs_up, vampire, victory_hand, vulcan_salute, waving_hand, woman, woman_artist,
  woman_astronaut, woman_biking, woman_bouncing_ball, woman_bowing, woman_cartwheeling,
  woman_climbing, woman_construction_worker, woman_cook, woman_dancing, woman_detective,
  woman_elf, woman_facepalming, woman_factory_worker, woman_fairy, woman_farmer,
  woman_firefighter, woman_frowning, woman_gesturing_no, woman_gesturing_ok,
  woman_getting_haircut, woman_getting_massage, woman_golfing, woman_guard, woman_health_worker,
  woman_in_lotus_position, woman_in_steamy_room, woman_judge, woman_juggling,
  woman_lifting_weights, woman_mage, woman_mechanic, woman_mountain_biking, woman_office_worker,
  woman_pilot, woman_playing_handball, woman_playing_water_polo, woman_police_officer,
  woman_pouting, woman_raising_hand, woman_rowing_boat, woman_running, woman_scientist,
  woman_shrugging, woman_singer, woman_student, woman_surfing, woman_swimming, woman_teacher,
  woman_technologist, woman_tipping_hand, woman_vampire, woman_walking, woman_wearing_turban,
  woman_with_headscarf, writing_hand"

/-- The ends of names for the tones of skin, and the modifier that gives a picture the tone. -/
def tones : List (String × Nat) :=
  [("_light_skin_tone", 0x1f3fb), ("_medium-light_skin_tone", 0x1f3fc),
   ("_medium_skin_tone", 0x1f3fd), ("_medium-dark_skin_tone", 0x1f3fe),
   ("_dark_skin_tone", 0x1f3ff)]

end TreeStore.Text.Emoji
